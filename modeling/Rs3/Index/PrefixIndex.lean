/-
# Rs3.Index.PrefixIndex — the namespace index with its prefix tables.

`NamespaceIndex` of `rs3-index/src/lib.rs`: the live entries, the prefix tokens of a key and the keys of a token.
Each round of the loops over tokens touches the row of its own token only, so the loops are written row by row; the
vector of tokens that `upsert` gets is collected into a set before anything else.

What the index is for are two things of a key: its entry and its tokens (`PrefixView`).  The index represents a view
exactly when its tables are inverse and hold no empty set, a view determines the index that represents it, and a call
updates the view at its key.
-/
import Mathlib.Data.Finset.Basic
import Rs3.Index.State

namespace Rs3.Index

open Function (update)

variable {Token : Type} [DecidableEq Token]

@[ext]
structure PrefixedIndex (Token : Type) where
  entries : BlindIndexKey → Option NamespaceEntry
  entryPrefixes : BlindIndexKey → Option (Finset Token)
  prefixes : Token → Option (Finset BlindIndexKey)

/-- Opaque snapshot of one key for transactional rollback. -/
structure NamespaceIndexKeySnapshot (Token : Type) where
  blindKey : BlindIndexKey
  entry : Option NamespaceEntry
  prefixTokens : Finset Token

/-- A row of a table: the set, unless it is empty. -/
def stored {α : Type} [DecidableEq α] (members : Finset α) : Option (Finset α) :=
  if members = ∅ then none else some members

section

variable {α : Type} [DecidableEq α] (members : Finset α)

theorem getD_stored : (stored members).getD ∅ = members := by
  unfold stored
  split <;> simp_all

theorem stored_ne : stored members ≠ some ∅ := by
  unfold stored
  split <;> simp_all

theorem mem_stored {a : α} : (∃ row, stored members = some row ∧ a ∈ row) ↔ a ∈ members := by
  unfold stored
  split <;> simp_all

end

namespace PrefixedIndex

variable (index : PrefixedIndex Token)

def new : PrefixedIndex Token := ⟨fun _ => none, fun _ => none, fun _ => none⟩

def removePrefixMembership (blindKey : BlindIndexKey) : PrefixedIndex Token :=
  match index.entryPrefixes blindKey with
  | none => index
  | some prefixTokens =>
    { index with
      entryPrefixes := update index.entryPrefixes blindKey none
      prefixes := fun token =>
        if token ∈ prefixTokens then (index.prefixes token).bind fun members => stored (members.erase blindKey)
        else index.prefixes token }

def upsert (entry : NamespaceEntry) (prefixTokens : Finset Token) : PrefixedIndex Token :=
  let index := index.removePrefixMembership entry.blindKey
  { entries := update index.entries entry.blindKey (some entry)
    entryPrefixes :=
      if prefixTokens = ∅ then index.entryPrefixes
      else update index.entryPrefixes entry.blindKey (some prefixTokens)
    prefixes := fun token =>
      if token ∈ prefixTokens then some (insert entry.blindKey ((index.prefixes token).getD ∅))
      else index.prefixes token }

def upsertWithoutPrefixes (entry : NamespaceEntry) : PrefixedIndex Token := index.upsert entry ∅

def remove (blindKey : BlindIndexKey) : PrefixedIndex Token :=
  removePrefixMembership { index with entries := update index.entries blindKey none } blindKey

def snapshotKey (blindKey : BlindIndexKey) : NamespaceIndexKeySnapshot Token where
  blindKey := blindKey
  entry := index.entries blindKey
  prefixTokens := (index.entryPrefixes blindKey).getD ∅

def restoreKey (snapshot : NamespaceIndexKeySnapshot Token) : PrefixedIndex Token :=
  let index := index.remove snapshot.blindKey
  match snapshot.entry with
  | some entry => index.upsert entry snapshot.prefixTokens
  | none => index

end PrefixedIndex

/-! ## What an index stands for -/

@[ext]
structure PrefixView (Token : Type) where
  entry : BlindIndexKey → Option NamespaceEntry
  tokens : BlindIndexKey → Finset Token

namespace PrefixView

variable {Token : Type} (view : PrefixView Token) (blindKey : BlindIndexKey) (entry entry' : Option NamespaceEntry)
  (tokens tokens' : Finset Token)

def set : PrefixView Token := ⟨update view.entry blindKey entry, update view.tokens blindKey tokens⟩

@[simp]
theorem set_set : (view.set blindKey entry tokens).set blindKey entry' tokens' = view.set blindKey entry' tokens' := by
  simp [set]

@[simp]
theorem set_self : view.set blindKey (view.entry blindKey) (view.tokens blindKey) = view := by
  simp [set]

/-- Entries are stored under their own keys, and only they have tokens. -/
def Live : Prop :=
  ∀ blindKey, (view.entry blindKey = none → view.tokens blindKey = ∅) ∧
    ∀ entry ∈ view.entry blindKey, entry.blindKey = blindKey

variable {view blindKey entry tokens}

theorem Live.set (h : view.Live) (hnone : entry = none → tokens = ∅) (hkey : ∀ e ∈ entry, e.blindKey = blindKey) :
    (view.set blindKey entry tokens).Live := by
  intro key
  by_cases heq : key = blindKey
  · subst heq
    simpa [PrefixView.set] using ⟨hnone, hkey⟩
  · simpa [PrefixView.set, heq] using h key

end PrefixView

structure PrefixedIndex.Represents (index : PrefixedIndex Token) (view : PrefixView Token) : Prop where
  entries : index.entries = view.entry
  entryPrefixes : ∀ blindKey, index.entryPrefixes blindKey = stored (view.tokens blindKey)
  prefixes : ∀ token, ∃ keys, index.prefixes token = stored keys ∧
    ∀ blindKey, blindKey ∈ keys ↔ token ∈ view.tokens blindKey

variable {index : PrefixedIndex Token} {view : PrefixView Token}

namespace PrefixedIndex.Represents

variable (h : index.Represents view) (blindKey : BlindIndexKey)

include h

theorem removePrefixMembership :
    (index.removePrefixMembership blindKey).Represents ⟨view.entry, update view.tokens blindKey ∅⟩ := by
  unfold PrefixedIndex.removePrefixMembership
  rw [h.entryPrefixes]
  by_cases hempty : view.tokens blindKey = ∅
  · rw [stored, if_pos hempty, ← hempty, Function.update_eq_self]
    exact h
  · rw [stored, if_neg hempty]
    refine ⟨h.entries, fun key => ?_, fun token => ?_⟩
    · by_cases hkey : key = blindKey
      · simp [hkey, stored]
      · simp [hkey, h.entryPrefixes]
    -- the key is in the rows of its own tokens and in no other
    · obtain ⟨keys, hrow, hkeys⟩ := h.prefixes token
      refine ⟨keys.erase blindKey, ?_, fun key => ?_⟩
      · simp only [hrow, ← hkeys]
        split
        · rw [stored, if_neg (Finset.ne_empty_of_mem ‹_›), Option.bind_some]
        · rw [Finset.erase_eq_of_notMem ‹_›]
      · by_cases hkey : key = blindKey <;> simp [hkey, hkeys]

theorem upsert (entry : NamespaceEntry) (prefixTokens : Finset Token) :
    (index.upsert entry prefixTokens).Represents (view.set entry.blindKey (some entry) prefixTokens) := by
  have hbase := h.removePrefixMembership entry.blindKey
  refine ⟨?_, fun key => ?_, fun token => ?_⟩
  · simp only [PrefixedIndex.upsert, hbase.entries]
    rfl
  · have hrow := hbase.entryPrefixes key
    by_cases hkey : key = entry.blindKey <;> by_cases hempty : prefixTokens = ∅ <;>
      simp_all [PrefixedIndex.upsert, PrefixView.set, stored]
  · obtain ⟨keys, hrow, hkeys⟩ := hbase.prefixes token
    refine ⟨if token ∈ prefixTokens then insert entry.blindKey keys else keys, ?_, fun key => ?_⟩
    · simp only [PrefixedIndex.upsert, hrow, getD_stored]
      split
      · rw [stored, if_neg (Finset.insert_ne_empty _ _)]
      · rfl
    · by_cases hkey : key = entry.blindKey <;> split <;> simp_all [PrefixView.set]

theorem remove : (index.remove blindKey).Represents (view.set blindKey none ∅) := by
  have hentries : Represents ⟨update index.entries blindKey none, index.entryPrefixes, index.prefixes⟩
      ⟨update view.entry blindKey none, view.tokens⟩ :=
    ⟨congrArg (update · blindKey none) h.entries, h.entryPrefixes, h.prefixes⟩
  exact hentries.removePrefixMembership blindKey

theorem unique {other : PrefixedIndex Token} (h' : other.Represents view) : index = other := by
  refine PrefixedIndex.ext (h.entries.trans h'.entries.symm) (funext fun key => ?_) (funext fun token => ?_)
  · rw [h.entryPrefixes, h'.entryPrefixes]
  · obtain ⟨keys, hrow, hkeys⟩ := h.prefixes token
    obtain ⟨keys', hrow', hkeys'⟩ := h'.prefixes token
    rw [hrow, hrow', Finset.ext fun key => (hkeys key).trans (hkeys' key).symm]

end PrefixedIndex.Represents

/-! ## Runs -/

inductive PrefixedIndexCall (Token : Type) where
  | upsert (entry : NamespaceEntry) (prefixTokens : Finset Token)
  | upsertWithoutPrefixes (entry : NamespaceEntry)
  | remove (blindKey : BlindIndexKey)
  | restoreKey (snapshot : NamespaceIndexKeySnapshot Token)

namespace PrefixedIndexCall

/-- The call touches no other key. -/
def On (blindKey : BlindIndexKey) : PrefixedIndexCall Token → Prop
  | upsert entry _ | upsertWithoutPrefixes entry => entry.blindKey = blindKey
  | remove key => key = blindKey
  | restoreKey snapshot => snapshot.blindKey = blindKey ∧ ∀ entry ∈ snapshot.entry, entry.blindKey = blindKey

def run (index : PrefixedIndex Token) : PrefixedIndexCall Token → PrefixedIndex Token
  | upsert entry prefixTokens => index.upsert entry prefixTokens
  | upsertWithoutPrefixes entry => index.upsertWithoutPrefixes entry
  | remove blindKey => index.remove blindKey
  | restoreKey snapshot => index.restoreKey snapshot

theorem run_represents (call : PrefixedIndexCall Token) (h : index.Represents view) (hlive : view.Live) :
    ∃ view', (run index call).Represents view' ∧ view'.Live ∧
      ∀ key, call.On key → ∃ entry tokens, view' = view.set key entry tokens := by
  have hset : ∀ entry (tokens : Finset Token), (view.set entry.blindKey (some entry) tokens).Live := fun _ _ =>
    hlive.set (by simp) (by simp)
  have hremoved : ∀ key, (view.set key none ∅).Live := fun _ => hlive.set (by simp) (by simp)
  cases call with
  | upsert entry tokens => exact ⟨_, h.upsert entry tokens, hset _ _, fun _ hon => ⟨_, _, congrArg (view.set · _ _) hon⟩⟩
  | upsertWithoutPrefixes entry => exact ⟨_, h.upsert entry ∅, hset _ _, fun _ hon => ⟨_, _, congrArg (view.set · _ _) hon⟩⟩
  | remove blindKey => exact ⟨_, h.remove _, hremoved _, fun _ hon => ⟨_, _, congrArg (view.set · _ _) hon⟩⟩
  | restoreKey snapshot =>
    obtain ⟨blindKey, entry, tokens⟩ := snapshot
    cases entry with
    | none => exact ⟨_, h.remove _, hremoved _, fun _ hon => ⟨_, _, congrArg (view.set · _ _) hon.1⟩⟩
    | some entry =>
      refine ⟨_, (h.remove _).upsert entry tokens, (hremoved _).set (by simp) (by simp), ?_⟩
      rintro key ⟨rfl, hkey⟩
      rw [hkey entry rfl]
      exact ⟨_, _, view.set_set ..⟩

theorem foldl_run_represents (calls : List (PrefixedIndexCall Token)) (h : index.Represents view) (hlive : view.Live) :
    ∃ view', (calls.foldl run index).Represents view' ∧ view'.Live ∧
      ∀ key, (∀ call ∈ calls, call.On key) → ∃ entry tokens, view' = view.set key entry tokens := by
  induction calls generalizing index view with
  | nil => exact ⟨view, h, hlive, fun key _ => ⟨_, _, (view.set_self key).symm⟩⟩
  | cons call calls ih =>
    obtain ⟨between, hbetween, hlive', hon⟩ := call.run_represents h hlive
    obtain ⟨view', h', hlive'', hons⟩ := ih hbetween hlive'
    refine ⟨view', h', hlive'', fun key hall => ?_⟩
    obtain ⟨hcall, hcalls⟩ := List.forall_mem_cons.mp hall
    -- two updates at one key are one
    obtain ⟨_, _, rfl⟩ := hon key hcall
    obtain ⟨_, _, rfl⟩ := hons key hcalls
    exact ⟨_, _, view.set_set ..⟩

end PrefixedIndexCall

/-- **Any calls** keep the two tables inverse, without empty rows and with live keys only; and restoring a key undoes
every sequence of calls on that key. -/
theorem prefix_tables_restorable (calls : List (PrefixedIndexCall Token)) :
    let index := calls.foldl PrefixedIndexCall.run .new
    (∀ key token, (∃ keys, index.prefixes token = some keys ∧ key ∈ keys) ↔
      ∃ tokens, index.entryPrefixes key = some tokens ∧ token ∈ tokens) ∧
    (∀ key, index.entryPrefixes key ≠ some ∅) ∧ (∀ token, index.prefixes token ≠ some ∅) ∧
    (∀ key, index.entryPrefixes key ≠ none → index.entries key ≠ none) ∧
    ∀ key (later : List (PrefixedIndexCall Token)), (∀ call ∈ later, call.On key) →
      (later.foldl PrefixedIndexCall.run index).restoreKey (index.snapshotKey key) = index := by
  intro index
  have hnew : PrefixedIndex.new.Represents ⟨fun _ => none, fun _ => (∅ : Finset Token)⟩ :=
    ⟨rfl, fun _ => rfl, fun _ => ⟨∅, rfl, by simp⟩⟩
  obtain ⟨view, h, hlive, -⟩ := PrefixedIndexCall.foldl_run_represents calls hnew fun _ => ⟨fun _ => rfl, by simp⟩
  refine ⟨fun key token => ?_, fun key => ?_, fun token => ?_, fun key hrow hnone => hrow ?_, fun key later hon => ?_⟩
  · obtain ⟨keys, hrow, hkeys⟩ := h.prefixes token
    rw [hrow, mem_stored, hkeys, h.entryPrefixes, mem_stored]
  · exact h.entryPrefixes key ▸ stored_ne _
  · obtain ⟨keys, hrow, -⟩ := h.prefixes token
    exact hrow ▸ stored_ne _
  · rw [h.entryPrefixes, (hlive key).1 (h.entries ▸ hnone), stored, if_pos rfl]
  · obtain ⟨_, h', -, hset⟩ := PrefixedIndexCall.foldl_run_represents later h hlive
    obtain ⟨_, _, rfl⟩ := hset key hon
    have hremoved := h'.remove key
    rw [PrefixView.set_set] at hremoved
    refine PrefixedIndex.Represents.unique ?_ h
    have hsnapshot : index.snapshotKey key = ⟨key, view.entry key, view.tokens key⟩ := by
      rw [PrefixedIndex.snapshotKey, h.entries, h.entryPrefixes, getD_stored]
    rw [hsnapshot, PrefixedIndex.restoreKey]
    -- a key without an entry has no tokens, so there is nothing to put back
    cases hentry : view.entry key with
    | none =>
      rw [← hentry, ← (hlive key).1 hentry, view.set_self] at hremoved
      exact hremoved
    | some entry =>
      have hrestored := hremoved.upsert entry (view.tokens key)
      rw [(hlive key).2 entry hentry, ← hentry, view.set_set, view.set_self] at hrestored
      exact hrestored

end Rs3.Index
