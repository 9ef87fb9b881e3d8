/-
# Rs3.Lib.CasRegister — clients of one shared register with revision compare-and-swap.

A register holds at most one value and changes only by *requests*: `create` (the register must be
empty) and `replace r` (the register must still be at revision `r`).  Every applied request moves the
revision, so a request that carries an old revision can never apply again.  Clients are programs over
the register: they read it, submit requests, and take atomic local steps on state of their own under a
clock.  Replies can be lost.  A lost request stays in flight and may be applied at any later moment, or
never.

The state records the whole history of the register (`log`), and the register itself is read off the
log: the revision is the number of requests applied so far.  This is a library: it names no program.
-/
import Mathlib.Logic.Function.Basic
import Mathlib.Logic.Relation
import Mathlib.Data.List.Basic
import Mathlib.Algebra.Order.Ring.Int

namespace Rs3.Cas

variable {V G L W A K ρ ρ' : Type}

/-! ## Programs -/

/-- A register value together with the revision at which it was read. -/
structure Versioned (V : Type) where
  rev : ℕ
  val : V
  deriving DecidableEq, Repr

/-- What a client learns about a request it submitted.  `unavailable` says nothing: the request may
have been applied, may be applied later, or may never be. -/
inductive Reply (V : Type) where
  | ok (w : Versioned V)
  | conflict
  | unavailable
  deriving DecidableEq, Repr

/-- A client program with result `ρ`.  `W` labels the requests and `A` the local steps; `G` names the
owners of local state `L`. -/
inductive Prog (V G L W A ρ : Type) : Type where
  | done (r : ρ)
  /-- Read the register; `none` when the read itself fails. -/
  | get (k : Option (Option (Versioned V)) → Prog V G L W A ρ)
  | create (w : W) (v : V) (k : Reply V → Prog V G L W A ρ)
  | replace (w : W) (b : Versioned V) (k : Reply V → Prog V G L W A ρ)
  /-- One atomic step on the local state of `g`; the continuation sees the clock and the state as
  they were when the step was taken. -/
  | act (g : G) (a : A) (upd : ℕ → L → L) (k : ℕ → L → Prog V G L W A ρ)

namespace Prog

def bind : Prog V G L W A ρ → (ρ → Prog V G L W A ρ') → Prog V G L W A ρ'
  | .done r, f => f r
  | .get k, f => .get fun x => (k x).bind f
  | .create w v k, f => .create w v fun x => (k x).bind f
  | .replace w b k, f => .replace w b fun x => (k x).bind f
  | .act g a upd k, f => .act g a upd fun t l => (k t l).bind f

instance : Monad (Prog V G L W A) where
  pure := .done
  bind := bind

end Prog

/-! ## The register and its history -/

/-- A submitted request: `rev = none` creates the register, `rev = some r` replaces revision `r`. -/
structure Request (V W : Type) where
  call : ℕ
  label : W
  rev : Option ℕ
  val : V
  deriving DecidableEq, Repr

structure Write (V W : Type) where
  call : ℕ
  label : W
  new : V
  deriving DecidableEq, Repr

/-- Everything the clients share, together with the local state of every owner. -/
structure Shared (V G L W : Type) where
  /-- The register before the first applied request. -/
  init : Option V
  /-- The applied requests, oldest first. -/
  log : List (Write V W)
  /-- Requests whose reply was lost. -/
  pool : List (Request V W)
  clock : ℕ
  locals : G → L

namespace Shared

variable (s : Shared V G L W) (q : Request V W)

/-- The register content at revision `r`, for revisions that were reached. -/
def valAt : ℕ → Option V
  | 0 => s.init
  | r + 1 => (s.log[r]?).map Write.new

/-- The current revision: the number of applied requests. -/
def rev : ℕ := s.log.length

def reg : Option V := s.valAt s.rev

def read : Option (Versioned V) := s.reg.map (Versioned.mk s.rev)

/-- Append one applied request to the history. -/
def push : Shared V G L W := { s with log := s.log ++ [⟨q.call, q.label, q.val⟩] }

/-- Leave a request in flight. -/
def lose : Shared V G L W := { s with pool := q :: s.pool }

/-- Let time pass. -/
def tick (d : ℕ) : Shared V G L W := { s with clock := s.clock + d }

section

variable [DecidableEq G]

variable (s : Shared V G L W)

/-- Replace the local state of `g`. -/
def setLocal (g : G) (l : L) : Shared V G L W := { s with locals := Function.update s.locals g l }

end

@[simp]
theorem push_log (s : Shared V G L W) (q : Request V W) : (s.push q).log = s.log ++ [⟨q.call, q.label, q.val⟩] := rfl

end Shared

namespace Request

/-- The register is in the state this request asks for. -/
def Applies (q : Request V W) (s : Shared V G L W) : Prop :=
  match q.rev with
  | none => s.reg = none
  | some r => s.reg ≠ none ∧ s.rev = r

end Request

/-! ## Steps and runs -/

section System

variable [DecidableEq G]

/-- One step of the program of call `c`.  `allowed` restricts the local steps a run may take. -/
inductive Prog.Step (allowed : Shared V G L W → A → Prop) (c : ℕ) :
    Shared V G L W → Prog V G L W A ρ → Shared V G L W → Prog V G L W A ρ → Prop
  | get (s k) : Step allowed c s (.get k) s (k (some s.read))
  | getFailed (s k) : Step allowed c s (.get k) s (k none)
  | createOk (s w v k) (h : Request.Applies ⟨c, w, none, v⟩ s) :
      Step allowed c s (.create w v k) (s.push ⟨c, w, none, v⟩) (k (.ok ⟨s.rev + 1, v⟩))
  | createConflict (s w v k) (h : ¬ Request.Applies ⟨c, w, none, v⟩ s) :
      Step allowed c s (.create w v k) s (k .conflict)
  | createLost (s w v k) : Step allowed c s (.create w v k) (s.lose ⟨c, w, none, v⟩) (k .unavailable)
  | replaceOk (s w b k) (h : Request.Applies ⟨c, w, some b.rev, b.val⟩ s) :
      Step allowed c s (.replace w b k) (s.push ⟨c, w, some b.rev, b.val⟩)
        (k (.ok ⟨s.rev + 1, b.val⟩))
  | replaceConflict (s w b k) (h : ¬ Request.Applies ⟨c, w, some b.rev, b.val⟩ s) :
      Step allowed c s (.replace w b k) s (k .conflict)
  | replaceLost (s w b k) : Step allowed c s (.replace w b k) (s.lose ⟨c, w, some b.rev, b.val⟩) (k .unavailable)
  | act (s g a upd k) (h : allowed s a) :
      Step allowed c s (.act g a upd k) (s.setLocal g (upd s.clock (s.locals g)))
        (k s.clock (s.locals g))

/-- A protocol: what each kind of call runs, when it may start, and which local steps are allowed. -/
structure Protocol (V G L W A K ρ : Type) where
  prog : K → Prog V G L W A ρ
  startable : Shared V G L W → K → Prop
  allowed : Shared V G L W → A → Prop

/-- The shared state and the calls made so far; a finished call stays as `done`. -/
structure Sys (V G L W A K ρ : Type) where
  shared : Shared V G L W
  calls : ℕ → Option (K × Prog V G L W A ρ)

inductive Sys.Step (P : Protocol V G L W A K ρ) :
    Sys V G L W A K ρ → Sys V G L W A K ρ → Prop
  | tick (σ d) : Step P σ ⟨σ.shared.tick d, σ.calls⟩
  | deliver (σ q) (hq : q ∈ σ.shared.pool) (ha : q.Applies σ.shared) : Step P σ ⟨σ.shared.push q, σ.calls⟩
  | start (σ c kind) (hc : σ.calls c = none) (hs : P.startable σ.shared kind) :
      Step P σ ⟨σ.shared, Function.update σ.calls c (some (kind, P.prog kind))⟩
  | call (σ c kind p p' s') (hc : σ.calls c = some (kind, p))
      (hs : Prog.Step P.allowed c σ.shared p s' p') :
      Step P σ ⟨s', Function.update σ.calls c (some (kind, p'))⟩

def Sys.Run (P : Protocol V G L W A K ρ) : Sys V G L W A K ρ → Sys V G L W A K ρ → Prop :=
  Relation.ReflTransGen (Sys.Step P)

/-- A system in which no call was made yet. -/
structure Sys.Initial (σ : Sys V G L W A K ρ) : Prop where
  log : σ.shared.log = []
  pool : σ.shared.pool = []
  calls : ∀ c, σ.calls c = none

end System

end Rs3.Cas
