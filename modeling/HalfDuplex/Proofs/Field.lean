import HalfDuplex.Proofs.Move

/-!
# What a move does to each part of a bus

For each part of a bus, its value after a move in terms of its value before.  Proofs about moves
rewrite with these equations and do not open the operations again.
-/

namespace HalfDuplex

namespace Bus

variable (b : Bus) (t : Ticket) (c : Cell) (why : Option Reason)

/-! ### Taking a slot

Beginning a cycle touches none of these parts. -/

theorem occupy_config : (b.occupy t c why).config = b.config := by
  unfold occupy beginCycle; split_ifs <;> rfl

theorem occupy_active : (b.occupy t c why).active = b.active + 1 := by
  unfold occupy beginCycle; split_ifs <;> rfl

theorem occupy_waiting : (b.occupy t c why).waiting = b.waiting := by
  unfold occupy beginCycle; split_ifs <;> rfl

theorem occupy_held : (b.occupy t c why).held = b.held.set c (b.held.get c + 1) := by
  unfold occupy beginCycle; split_ifs <;> rfl

theorem occupy_holders : (b.occupy t c why).holders = (t, c) :: b.holders := by
  unfold occupy beginCycle; split_ifs <;> rfl

theorem occupy_granted : (b.occupy t c why).granted = b.granted := by
  unfold occupy beginCycle; split_ifs <;> rfl

theorem occupy_nextTicket : (b.occupy t c why).nextTicket = b.nextTicket := by
  unfold occupy beginCycle; split_ifs <;> rfl

/-! ### Any move -/

variable (m : Move)

@[simp] theorem config_perform : (b.perform m).config = b.config := by
  cases m with
  | arrive t c => exact occupy_config _ t c none
  | board t c why => exact occupy_config _ t c why
  | enqueue | collect | vacate | leave | refuse => rfl

theorem active_perform : (b.perform m).active =
    match m with
    | .arrive _ _ | .board _ _ _ => b.active + 1
    | .vacate _ _ => b.active - 1
    | _ => b.active := by
  cases m with
  | arrive t c => exact occupy_active _ t c none
  | board t c why => exact occupy_active _ t c why
  | enqueue | collect | vacate | leave | refuse => rfl

theorem current_perform : (b.perform m).current =
    match m with
    | .arrive _ c | .board _ c _ => some c.direction
    | .vacate _ _ => if b.active - 1 = 0 then none else b.current
    | _ => b.current := by
  cases m <;> rfl

theorem waiting_perform : (b.perform m).waiting =
    match m with
    | .enqueue t c => b.waiting.set c (b.waiting.get c ++ [t])
    | .board _ c _ => b.waiting.set c (b.waiting.get c).tail
    | .leave t c => b.waiting.set c ((b.waiting.get c).erase t)
    | _ => b.waiting := by
  cases m with
  | arrive t c => exact occupy_waiting _ t c none
  | board t c why => exact occupy_waiting _ t c why
  | enqueue | collect | vacate | leave | refuse => rfl

theorem held_perform : (b.perform m).held =
    match m with
    | .arrive _ c | .board _ c _ => b.held.set c (b.held.get c + 1)
    | .vacate _ c => b.held.set c (b.held.get c - 1)
    | _ => b.held := by
  cases m with
  | arrive t c => exact occupy_held _ t c none
  | board t c why => exact occupy_held _ t c why
  | enqueue | collect | vacate | leave | refuse => rfl

theorem holders_perform : (b.perform m).holders =
    match m with
    | .arrive t c | .board t c _ => (t, c) :: b.holders
    | .vacate t _ => b.holders.filter fun h => h.1 ≠ t
    | _ => b.holders := by
  cases m with
  | arrive t c => exact occupy_holders _ t c none
  | board t c why => exact occupy_holders _ t c why
  | enqueue | collect | vacate | leave | refuse => rfl

theorem granted_perform : (b.perform m).granted =
    match m with
    | .board t _ _ => t :: b.granted
    | .collect t => b.granted.filter (· ≠ t)
    | _ => b.granted := by
  cases m with
  | arrive t c => exact occupy_granted _ t c none
  | board t c why => exact congrArg (t :: ·) (occupy_granted _ t c why)
  | enqueue | collect | vacate | leave | refuse => rfl

theorem nextTicket_perform : (b.perform m).nextTicket =
    match m with
    | .arrive _ _ | .enqueue _ _ => b.nextTicket + 1
    | _ => b.nextTicket := by
  cases m with
  | arrive t c => exact occupy_nextTicket _ t c none
  | board t c why => exact occupy_nextTicket _ t c why
  | enqueue | collect | vacate | leave | refuse => rfl

/-! ### Settings never change -/

@[simp] theorem config_performAll (ms : List Move) : (b.performAll ms).config = b.config := by
  induction ms generalizing b with
  | nil => rfl
  | cons m ms ih => rw [performAll_cons, ih, config_perform]

@[simp] theorem config_step (op : Op) : (b.step op).2.config = b.config := by
  rw [step_eq_performAll, config_performAll]

@[simp] theorem config_run (ops : List Op) : (b.run ops).2.config = b.config := by
  rw [run_eq_performAll, config_performAll]

end Bus

end HalfDuplex
