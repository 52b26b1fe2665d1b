import HalfDuplex.Bus.Run
import HalfDuplex.Proofs.Queue
import Mathlib.Data.List.Basic

/-!
# Operations as moves

Seen closely, an operation of a bus is a short row of *moves*: a request takes a slot or joins its
queue, a slot is given back, a waiter leaves its queue, the next waiter takes a slot.  Between two
moves of one operation the bus may be out of rest: a slot has been given back and nobody has been
let in yet.  Statements about every single admission speak about these moments.

* `Bus.moves` : the moves of an operation, `Bus.trace` those of a run.
* `Bus.row_moves` : the rows of moves that operations make, whatever the operation.
* `Bus.step_eq_performAll`, `Bus.run_eq_performAll` : the moves lead exactly to the bus that the
  operation, or the run, leaves behind.
* `Bus.woken_step`, `Bus.admitted_step` : the tickets that an operation reports as woken are those
  that went from a queue to a slot in one of its moves, in the order of the moves; with those that
  it admits on arrival they are all the tickets that take a slot.
* `Bus.history` : every move of a run together with the bus just before it.
-/

namespace HalfDuplex

/-- The tickets that an operation says it gave a slot, on arrival or from a queue. -/
def Answer.admitted : Answer → List Ticket
  | .request (.admitted t) => [t]
  | .tryRequest (some t) => [t]
  | answer => answer.woken

namespace Bus

/-- One change of a bus that no operation divides further. -/
inductive Move where
  /-- A new ticket takes a slot at once. -/
  | arrive (ticket : Ticket) (cell : Cell)
  /-- A new ticket joins its queue. -/
  | enqueue (ticket : Ticket) (cell : Cell)
  /-- The head of a queue takes a slot.  `why` tells how its direction was chosen, unless the bus
  was only topped up. -/
  | board (ticket : Ticket) (cell : Cell) (why : Option Reason)
  /-- A caller picks up its grant. -/
  | collect (ticket : Ticket)
  /-- A slot is given back. -/
  | vacate (ticket : Ticket) (cell : Cell)
  /-- A ticket leaves its queue without a slot. -/
  | leave (ticket : Ticket) (cell : Cell)
  /-- A release is refused. -/
  | refuse
  deriving DecidableEq, Repr

namespace Move

/-- The ticket that goes from a queue to a slot. -/
def boarded? : Move → Option Ticket
  | board t _ _ => some t
  | _ => none

/-- The ticket that takes a slot, on arrival or from a queue, and its cell. -/
def admitted? : Move → Option (Ticket × Cell)
  | arrive t c => some (t, c)
  | board t c _ => some (t, c)
  | _ => none

end Move

/-- The bus after a move. -/
def perform (b : Bus) : Move → Bus
  | .arrive t c => (b.issued.occupy t c none).countImmediate
  | .enqueue t c => { b.issued with waiting := b.waiting.set c (b.waiting.get c ++ [t]) }
  | .board t c why =>
    (({ b with waiting := b.waiting.set c (b.waiting.get c).tail }).occupy t c why).grant t
  | .collect t => (b.takeGrant t).2
  | .vacate t c => b.vacated t c
  | .leave t c => b.unqueued t c
  | .refuse => b.countRejected

/-- The bus after several moves. -/
def performAll (b : Bus) : List Move → Bus
  | [] => b
  | m :: ms => (b.perform m).performAll ms

/-! ### The moves of an operation -/

/-- The moves that let waiters of direction `d` into at most this many slots. -/
def serveMoves (d : Direction) (why : Option Reason) : Nat → Bus → List Move
  | 0, _ => []
  | room + 1, b =>
    match b.popWaiter? d with
    | none => []
    | some (t, c, _) => .board t c why :: serveMoves d why room (b.perform (.board t c why))

/-- The moves that let in whoever may go. -/
def dispatchMoves (b : Bus) : List Move :=
  match b.current with
  | some d => if b.yields d then [] else serveMoves d none (b.config.capacity - b.active) b
  | none =>
    match b.nextTurn with
    | none => []
    | some (d, why) => serveMoves d (some why) (b.config.capacity - b.active) b

/-- The moves of an operation. -/
def moves (b : Bus) : Op → List Move
  | .request c =>
    if b.accepts c then [.arrive b.nextTicket c] else [.enqueue b.nextTicket c]
  | .tryRequest c => if b.accepts c then [.arrive b.nextTicket c] else []
  | .takeGrant t => if t ∈ b.granted then [.collect t] else []
  | .release c =>
    match b.oldestHolder? c with
    | none => [.refuse]
    | some t => .vacate t c :: (b.perform (.vacate t c)).dispatchMoves
  | .releaseTicket t =>
    match b.cellOf? t with
    | none => [.refuse]
    | some c => .vacate t c :: (b.perform (.vacate t c)).dispatchMoves
  | .withdraw t =>
    match b.queueOf? t with
    | none => []
    | some c => .leave t c :: (b.perform (.leave t c)).dispatchMoves

/-- The moves of a run. -/
def trace (b : Bus) : List Op → List Move
  | [] => []
  | op :: ops => b.moves op ++ (b.step op).2.trace ops

/-- A move and the bus just before it. -/
structure Moment where
  bus : Bus
  move : Move
  deriving DecidableEq, Repr

/-- The bus just after the move of this moment. -/
def Moment.after (m : Moment) : Bus := m.bus.perform m.move

/-- The moments of a row of moves. -/
def moments (b : Bus) : List Move → List Moment
  | [] => []
  | m :: ms => ⟨b, m⟩ :: (b.perform m).moments ms

/-- The moments of a run. -/
def history (b : Bus) (ops : List Op) : List Moment := b.moments (b.trace ops)

/-! ### The moves do what the operations do -/

@[simp] theorem performAll_nil (b : Bus) : b.performAll [] = b := rfl

@[simp] theorem performAll_cons (b : Bus) (m : Move) (ms : List Move) :
    b.performAll (m :: ms) = (b.perform m).performAll ms := rfl

theorem performAll_append (b : Bus) (ms ms' : List Move) :
    b.performAll (ms ++ ms') = (b.performAll ms).performAll ms' := by
  induction ms generalizing b with
  | nil => rfl
  | cons m ms ih => exact ih (b.perform m)

@[simp] theorem moments_nil (b : Bus) : b.moments [] = [] := rfl

@[simp] theorem moments_cons (b : Bus) (m : Move) (ms : List Move) :
    b.moments (m :: ms) = ⟨b, m⟩ :: (b.perform m).moments ms := rfl

theorem moments_append (b : Bus) (ms ms' : List Move) :
    b.moments (ms ++ ms') = b.moments ms ++ (b.performAll ms).moments ms' := by
  induction ms generalizing b with
  | nil => rfl
  | cons m ms ih => exact congrArg (_ :: ·) (ih (b.perform m))

/-- What no move lowers is at no moment higher than in the end. -/
theorem le_performAll {b : Bus} {f : Bus → Nat} (hf : ∀ s m, f s ≤ f (s.perform m))
    (ms : List Move) :
    f b ≤ f (b.performAll ms) ∧ ∀ m ∈ b.moments ms, f m.after ≤ f (b.performAll ms) := by
  induction ms generalizing b with
  | nil => exact ⟨Nat.le_refl _, by simp⟩
  | cons m ms ih =>
    obtain ⟨hfirst, hrest⟩ := ih (b := b.perform m)
    rw [moments_cons, List.forall_mem_cons]
    exact ⟨Nat.le_trans (hf b m) hfirst, hfirst, hrest⟩

theorem serve_eq (d : Direction) (why : Option Reason) (room : Nat) (b : Bus) :
    serve d why room b =
      ((serveMoves d why room b).filterMap Move.boarded?,
        b.performAll (serveMoves d why room b)) := by
  induction room generalizing b with
  | zero => rfl
  | succ room ih =>
    cases h : b.popWaiter? d with
    | none =>
      simp only [serve, serveMoves, h]
      rfl
    | some next =>
      obtain ⟨t, c, b'⟩ := next
      -- the waiter is taken from its queue first; boarding does both at once
      obtain ⟨-, -, rfl⟩ := popWaiter?_eq_some h
      simp only [serve, serveMoves, h, ih]
      rfl

theorem dispatch_eq (b : Bus) :
    b.dispatch = (b.dispatchMoves.filterMap Move.boarded?, b.performAll b.dispatchMoves) := by
  cases hc : b.current with
  | some d =>
    cases hy : b.yields d with
    | true =>
      simp only [dispatch, dispatchMoves, hc, hy, ↓reduceIte]
      rfl
    | false =>
      simp only [dispatch, dispatchMoves, hc, hy, Bool.false_eq_true, ↓reduceIte]
      exact serve_eq _ _ _ _
  | none =>
    cases hn : b.nextTurn with
    | none =>
      simp only [dispatch, dispatchMoves, hc, hn]
      rfl
    | some turn =>
      simp only [dispatch, dispatchMoves, hc, hn]
      exact serve_eq _ _ _ _

theorem filter_ne_eq_self {l : List Ticket} {t : Ticket} (h : t ∉ l) : l.filter (· ≠ t) = l := by
  refine List.filter_eq_self.2 fun u hu => decide_eq_true ?_
  rintro rfl
  exact h hu

theorem takeGrant_of_notMem {b : Bus} {t : Ticket} (h : t ∉ b.granted) : (b.takeGrant t).2 = b := by
  simp only [takeGrant, filter_ne_eq_self h]

theorem board_of_mem_serveMoves {d : Direction} {why : Option Reason} {room : Nat} {b : Bus}
    {m : Move} (hm : m ∈ serveMoves d why room b) : ∃ t c, m = .board t c why := by
  induction room generalizing b with
  | zero => cases hm
  | succ room ih =>
    cases h : b.popWaiter? d with
    | none => simp [serveMoves, h] at hm
    | some next =>
      obtain ⟨t, c, b'⟩ := next
      simp only [serveMoves, h] at hm
      rcases List.mem_cons.1 hm with rfl | hm
      · exact ⟨t, c, rfl⟩
      · exact ih hm

theorem board_of_mem_dispatchMoves {b : Bus} {m : Move} (hm : m ∈ b.dispatchMoves) :
    ∃ t c why, m = .board t c why := by
  unfold dispatchMoves at hm
  split at hm
  · split_ifs at hm
    · cases hm
    · obtain ⟨t, c, rfl⟩ := board_of_mem_serveMoves hm
      exact ⟨t, c, _, rfl⟩
  · split at hm
    · cases hm
    · obtain ⟨t, c, rfl⟩ := board_of_mem_serveMoves hm
      exact ⟨t, c, _, rfl⟩

/-! ### Finding a ticket -/

theorem mem_holdersIn {b : Bus} {t : Ticket} {c : Cell} :
    t ∈ b.holdersIn c ↔ (t, c) ∈ b.holders := by
  simp only [holdersIn, List.mem_map, List.mem_filter, decide_eq_true_eq]
  constructor
  · rintro ⟨⟨u, c'⟩, ⟨hu, rfl⟩, rfl⟩
    exact hu
  · exact fun h => ⟨(t, c), ⟨h, rfl⟩, rfl⟩

theorem oldestHolder?_eq_some_iff {b : Bus} {t : Ticket} {c : Cell} :
    b.oldestHolder? c = some t ↔
      (t, c) ∈ b.holders ∧ ∀ u, (u, c) ∈ b.holders → t ≤ u := by
  simp only [oldestHolder?, List.min?_eq_some_iff, mem_holdersIn]

theorem oldestHolder?_eq_none_iff {b : Bus} {c : Cell} :
    b.oldestHolder? c = none ↔ ∀ t, (t, c) ∉ b.holders := by
  simp only [oldestHolder?, List.min?_eq_none_iff, List.eq_nil_iff_forall_not_mem, mem_holdersIn]

theorem mem_holders_of_oldest {b : Bus} {t : Ticket} {c : Cell}
    (h : b.oldestHolder? c = some t) : (t, c) ∈ b.holders :=
  (oldestHolder?_eq_some_iff.1 h).1

theorem mem_holders_of_cellOf {b : Bus} {t : Ticket} {c : Cell} (h : b.cellOf? t = some c) :
    (t, c) ∈ b.holders := by
  obtain ⟨l₁, l₂, hl, -⟩ := List.lookup_eq_some_iff.1 h
  rw [hl]
  simp

theorem cellOf?_eq_none_iff {b : Bus} {t : Ticket} :
    b.cellOf? t = none ↔ ∀ c, (t, c) ∉ b.holders := by
  rw [cellOf?, List.lookup_eq_none_iff]
  constructor
  · exact fun h c hmem => by simpa using h _ hmem
  · rintro h ⟨u, c⟩ hmem
    rw [bne_iff_ne]
    rintro rfl
    exact h c hmem

theorem mem_waiting_of_queueOf {b : Bus} {t : Ticket} {c : Cell} (h : b.queueOf? t = some c) :
    t ∈ b.waiting.get c := by
  simpa using List.find?_some h

theorem queueOf?_eq_none_iff {b : Bus} {t : Ticket} :
    b.queueOf? t = none ↔ ∀ c, t ∉ b.waiting.get c := by
  simp only [queueOf?, List.find?_eq_none, decide_eq_true_eq]
  exact ⟨fun h c => h c (Cell.mem_all c), fun h c _ => h c⟩

/-! ### The rows of moves -/

/-- The rows of moves that operations make: one move, if any, and where that makes room, those that
let in whoever may go. -/
inductive Row (b : Bus) : List Move → Prop where
  | nothing : Row b []
  | arrive {c : Cell} : b.accepts c = true → Row b [.arrive b.nextTicket c]
  | enqueue {c : Cell} : b.accepts c = false → Row b [.enqueue b.nextTicket c]
  | collect {t : Ticket} : t ∈ b.granted → Row b [.collect t]
  | refuse : Row b [.refuse]
  | vacate {t : Ticket} {c : Cell} : (t, c) ∈ b.holders →
      Row b (.vacate t c :: (b.perform (.vacate t c)).dispatchMoves)
  | leave {t : Ticket} {c : Cell} : t ∈ b.waiting.get c →
      Row b (.leave t c :: (b.perform (.leave t c)).dispatchMoves)

theorem row_moves (b : Bus) (op : Op) : b.Row (b.moves op) := by
  cases op with
  | request c =>
    rw [moves]
    split_ifs with hacc
    · exact .arrive hacc
    · exact .enqueue (by simpa using hacc)
  | tryRequest c =>
    rw [moves]
    split_ifs with hacc
    · exact .arrive hacc
    · exact .nothing
  | takeGrant t =>
    rw [moves]
    split_ifs with ht
    · exact .collect ht
    · exact .nothing
  | release c =>
    rw [moves]
    cases ho : b.oldestHolder? c with
    | none => exact .refuse
    | some t => exact .vacate (mem_holders_of_oldest ho)
  | releaseTicket t =>
    rw [moves]
    cases ho : b.cellOf? t with
    | none => exact .refuse
    | some c => exact .vacate (mem_holders_of_cellOf ho)
  | withdraw t =>
    rw [moves]
    cases ho : b.queueOf? t with
    | none => exact .nothing
    | some c => exact .leave (mem_waiting_of_queueOf ho)

/-! ### What the answers report -/

theorem admitted_dispatchMoves (b : Bus) :
    b.dispatchMoves.filterMap (fun m => m.admitted?.map Prod.fst) =
      b.dispatchMoves.filterMap Move.boarded? := by
  refine List.filterMap_congr fun m hm => ?_
  obtain ⟨t, c, why, rfl⟩ := board_of_mem_dispatchMoves hm
  rfl

/-- The answer of an operation reports its moves, and its moves lead to the bus it leaves. -/
theorem step_spec (b : Bus) (op : Op) :
    (b.step op).1.woken = (b.moves op).filterMap Move.boarded? ∧
      (b.step op).1.admitted = (b.moves op).filterMap (fun m => m.admitted?.map Prod.fst) ∧
      (b.step op).2 = b.performAll (b.moves op) := by
  cases op with
  | request c =>
    simp only [step, request, moves]
    split_ifs
    · exact ⟨rfl, rfl, rfl⟩
    · exact ⟨rfl, rfl, rfl⟩
  | tryRequest c =>
    simp only [step, tryRequest, moves]
    split_ifs
    · exact ⟨rfl, rfl, rfl⟩
    · exact ⟨rfl, rfl, rfl⟩
  | takeGrant t =>
    simp only [step, moves]
    split_ifs with h
    · exact ⟨rfl, rfl, rfl⟩
    -- a caller without a grant changes nothing, so no move stands for its operation
    · exact ⟨rfl, rfl, takeGrant_of_notMem h⟩
  | release c =>
    cases h : b.oldestHolder? c with
    | none =>
      simp only [step, release, moves, h]
      exact ⟨rfl, rfl, rfl⟩
    | some t =>
      simp only [step, release, moves, h, dispatch_eq]
      exact ⟨rfl, (admitted_dispatchMoves _).symm, rfl⟩
  | releaseTicket t =>
    cases h : b.cellOf? t with
    | none =>
      simp only [step, releaseTicket, moves, h]
      exact ⟨rfl, rfl, rfl⟩
    | some c =>
      simp only [step, releaseTicket, moves, h, dispatch_eq]
      exact ⟨rfl, (admitted_dispatchMoves _).symm, rfl⟩
  | withdraw t =>
    cases h : b.queueOf? t with
    | none =>
      simp only [step, withdraw, moves, h]
      split_ifs
      · exact ⟨rfl, rfl, rfl⟩
      · exact ⟨rfl, rfl, rfl⟩
    | some c =>
      simp only [step, withdraw, moves, h, dispatch_eq]
      exact ⟨rfl, (admitted_dispatchMoves _).symm, rfl⟩

theorem woken_step (b : Bus) (op : Op) :
    (b.step op).1.woken = (b.moves op).filterMap Move.boarded? :=
  (step_spec b op).1

theorem admitted_step (b : Bus) (op : Op) :
    (b.step op).1.admitted = (b.moves op).filterMap (fun m => m.admitted?.map Prod.fst) :=
  (step_spec b op).2.1

/-- The moves of an operation lead to the bus that it leaves behind. -/
theorem step_eq_performAll (b : Bus) (op : Op) : (b.step op).2 = b.performAll (b.moves op) :=
  (step_spec b op).2.2

/-- The moves of a run lead to the bus that it leaves behind. -/
theorem run_eq_performAll (b : Bus) (ops : List Op) :
    (b.run ops).2 = b.performAll (b.trace ops) := by
  induction ops generalizing b with
  | nil => rfl
  | cons op ops ih =>
    rw [trace, performAll_append, ← step_eq_performAll]
    exact ih (b.step op).2

theorem admitted_run (b : Bus) (ops : List Op) :
    (b.run ops).1.flatMap Answer.admitted =
      (b.trace ops).filterMap (fun m => m.admitted?.map Prod.fst) := by
  induction ops generalizing b with
  | nil => rfl
  | cons op ops ih =>
    rw [trace, List.filterMap_append, ← admitted_step, ← ih]
    rfl

end Bus

end HalfDuplex
