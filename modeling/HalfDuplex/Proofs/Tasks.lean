import HalfDuplex.Workload
import Mathlib.Data.List.Nodup

/-!
# The tasks of a workload

The tasks are numbered in the order in which they are listed, from zero on and without gaps, across
the batches of all cells.  The name of a task says its cell and its number, with a dash between them
that neither has, so it is the name of that task alone.  There is such a list only if its bytes are
no more than any list may have; more tasks than that can be counted, but not listed.

* `Workload.ids_taskList` : the numbers of the tasks.
* `Workload.cells_tasksFrom` : the cells of the tasks, batch after batch.
* `Task.threadName_injective` : no two tasks have the same thread name.
* `Workload.tasks_eq` : when there is a list of the tasks.
* `Workload.tasks_expand` : the whole expansion.
-/

namespace HalfDuplex

namespace Word

/-- What has room for its entries is made, and nothing else. -/
theorem room_bind {α : Type} {size n : Nat} (hsize : 0 < size) (x : α) :
    (room size n >>= fun _ => .ok x) =
      if n ≤ maxBytes / size then .ok x else .error .capacity := by
  have hiff : n ≤ maxBytes / size ↔ n * size ≤ maxBytes := Nat.le_div_iff_mul_le hsize
  simp only [room, hiff]
  split <;> rfl

end Word

namespace Task

theorem className_injective : Function.Injective className := by
  have hall : ∀ c ∈ Cell.all, ∀ c' ∈ Cell.all, className c = className c' → c = c' := by decide
  exact fun c c' h => hall c c.mem_all c' c'.mem_all h

theorem dash_notMem_className (c : Cell) : '-' ∉ (className c).toList := by
  have hall : ∀ c ∈ Cell.all, '-' ∉ (className c).toList := by decide
  exact hall c c.mem_all

theorem dash_notMem_toDigits (n : Nat) : '-' ∉ Nat.toDigits 10 n := by
  intro h
  have hdigit : '-'.isDigit = true := Nat.isDigit_of_mem_toDigits (by decide) (by decide) h
  exact absurd hdigit (by decide)

theorem toList_threadName (t : Task) :
    t.threadName.toList = t.name.toList ++ '-' :: Nat.toDigits 10 t.id := by
  have hname : t.threadName = t.name ++ "-" ++ t.id.repr := rfl
  rw [hname, String.toList_append, String.toList_append, Nat.toList_repr, List.append_assoc]
  rfl

/-- No two tasks have the same thread name. -/
theorem threadName_injective : Function.Injective threadName := by
  intro t t' h
  have hdash : '-' ∉ t.name.toList := dash_notMem_className t.cell
  rw [← String.toList_inj, toList_threadName, toList_threadName,
    List.append_cons_inj_of_notMem hdash (dash_notMem_toDigits t.id)] at h
  obtain ⟨hname, -, hdigits⟩ := h
  have hcell : t.cell = t'.cell := className_injective (String.toList_inj.1 hname)
  have hid : t.id = t'.id :=
    calc t.id = Nat.ofDigitChars 10 (Nat.toDigits 10 t.id) 0 := Nat.ofDigitChars_ten_toDigits.symm
      _ = Nat.ofDigitChars 10 (Nat.toDigits 10 t'.id) 0 := by rw [hdigits]
      _ = t'.id := Nat.ofDigitChars_ten_toDigits
  cases t
  cases t'
  rw [Task.mk.injEq]
  exact ⟨hid, hcell⟩

end Task

namespace Workload

variable {w : Workload} {n : Nat}

theorem ids_tasksFrom (next : Nat) (batches : List (Cell × Nat)) :
    (tasksFrom next batches).map Task.id =
      List.range' next ((batches.map Prod.snd).foldr (· + ·) 0) := by
  induction batches generalizing next with
  | nil => rfl
  | cons batch rest ih =>
    obtain ⟨c, k⟩ := batch
    have hfirst : ((List.range' next k).map fun id => (⟨id, c⟩ : Task)).map Task.id =
        List.range' next k := by
      rw [List.map_map]
      exact List.map_id _
    rw [tasksFrom, List.map_append, hfirst, ih, List.map_cons, List.foldr_cons,
      ← List.range'_append_1]

theorem ids_taskList (h : w.taskCount = .ok n) : w.taskList.map Task.id = List.range n := by
  simp only [taskCount, Word.sum] at h
  split_ifs at h
  rw [taskList, ids_tasksFrom, Except.ok.inj h, List.range_eq_range']

theorem length_taskList (h : w.taskCount = .ok n) : w.taskList.length = n := by
  rw [← List.length_map Task.id, ids_taskList h, List.length_range]

theorem id_of_getElem? (h : w.taskCount = .ok n) {i : Nat} {t : Task}
    (hi : w.taskList[i]? = some t) : t.id = i := by
  have hid : (w.taskList.map Task.id)[i]? = some t.id := by rw [List.getElem?_map, hi]; rfl
  rw [ids_taskList h] at hid
  obtain ⟨hlt, heq⟩ := List.getElem?_eq_some_iff.1 hid
  rw [← heq, List.getElem_range]

theorem cells_tasksFrom (next : Nat) (batches : List (Cell × Nat)) :
    (tasksFrom next batches).map Task.cell =
      batches.flatMap fun batch => List.replicate batch.2 batch.1 := by
  induction batches generalizing next with
  | nil => rfl
  | cons batch rest ih =>
    obtain ⟨c, k⟩ := batch
    have hfirst : ((List.range' next k).map fun id => (⟨id, c⟩ : Task)).map Task.cell =
        List.replicate k c := by
      rw [List.map_map]
      have hconst : (Task.cell ∘ fun id => (⟨id, c⟩ : Task)) = fun _ => c := rfl
      rw [hconst, List.map_const', List.length_range']
    rw [tasksFrom, List.map_append, hfirst, ih, List.flatMap_cons]

theorem named_taskList (w : Workload) :
    w.taskList.map (fun t => (t.cell, t.name)) =
      List.replicate w.outboundNormal (⟨.outbound, .normal⟩, "sender_task") ++
      List.replicate w.inboundNormal (⟨.inbound, .normal⟩, "receiver_task") ++
      List.replicate w.outboundElevated (⟨.outbound, .elevated⟩, "prio_sender_task") ++
      List.replicate w.inboundElevated (⟨.inbound, .elevated⟩, "prio_receiver_task") := by
  have hcells : w.taskList.map (fun t => (t.cell, t.name)) =
      (w.taskList.map Task.cell).map fun c => (c, Task.className c) := by
    rw [List.map_map]
    rfl
  rw [hcells, taskList, cells_tasksFrom]
  simp [batches, Task.className]

theorem nodup_threadNames (h : w.taskCount = .ok n) :
    (w.taskList.map Task.threadName).Nodup := by
  have hids : (w.taskList.map Task.id).Nodup := ids_taskList h ▸ List.nodup_range
  exact (List.Nodup.of_map _ hids).map Task.threadName_injective

/-! ### The room for the tasks -/

theorem tasks_of_error {overflow : Overflow} (h : w.taskCount = .error overflow) :
    w.tasks = .error overflow := by
  rw [tasks, h]
  rfl

/-- The tasks that can be counted can be listed just if there is room for so many. -/
theorem tasks_eq (h : w.taskCount = .ok n) : w.tasks =
    if n ≤ Word.maxBytes / Task.bytes then .ok w.taskList else .error .capacity := by
  have hroom : w.tasks = Word.room Task.bytes n >>= fun _ => .ok w.taskList := by
    rw [tasks, h]
    rfl
  rw [hroom, Word.room_bind (by decide)]

/-- **The tasks of a workload.**  If the four counts add up to a machine word, this word is the
number of tasks.  If it is at most the number of tasks that a list may have, there is a list of so
many.  The task at each place has that place as its number.  First come the outbound normal tasks,
then the inbound normal, the outbound elevated and the inbound elevated ones, as many of each as the
workload says and each with the name of its class, and no two thread names are equal.  If it is
more, the room for the list is refused. -/
theorem tasks_expand
    (hn : w.outboundNormal + w.inboundNormal + w.outboundElevated + w.inboundElevated = n)
    (h : n ≤ Word.max64) :
    w.taskCount = .ok n ∧
      (n ≤ Word.maxBytes / Task.bytes → ∃ tasks, w.tasks = .ok tasks ∧ tasks.length = n ∧
        (∀ (i : Nat) (t : Task), tasks[i]? = some t → t.id = i) ∧
        tasks.map (fun t => (t.cell, t.name)) =
          List.replicate w.outboundNormal (⟨.outbound, .normal⟩, "sender_task") ++
          List.replicate w.inboundNormal (⟨.inbound, .normal⟩, "receiver_task") ++
          List.replicate w.outboundElevated (⟨.outbound, .elevated⟩, "prio_sender_task") ++
          List.replicate w.inboundElevated (⟨.inbound, .elevated⟩, "prio_receiver_task") ∧
        (tasks.map Task.threadName).Nodup) ∧
      (Word.maxBytes / Task.bytes < n → w.tasks = .error .capacity) := by
  have hsum : (w.batches.map Prod.snd).foldr (· + ·) 0 = n := by
    simp only [batches, List.map_cons, List.map_nil, List.foldr_cons, List.foldr_nil]
    omega
  have hcount : w.taskCount = .ok n := by
    rw [taskCount, Word.sum, hsum]
    exact if_pos h
  rw [tasks_eq hcount]
  refine ⟨hcount, fun hle => ⟨w.taskList, if_pos hle, length_taskList hcount, ?_⟩,
    fun hlt => if_neg (Nat.not_le.2 hlt)⟩
  exact ⟨fun i t hi => id_of_getElem? hcount hi, named_taskList w, nodup_threadNames hcount⟩

/-- Two cells with two tasks and two with one. -/
theorem tasks_expand_six :
    let w : Workload :=
      { outboundNormal := 2, inboundNormal := 1, outboundElevated := 1, inboundElevated := 2 }
    2 + 1 + 1 + 2 = 6 ∧ 6 ≤ Word.max64 ∧ w.taskCount = .ok 6 ∧ 6 ≤ Word.maxBytes / Task.bytes ∧
      ∃ tasks, w.tasks = .ok tasks ∧ (tasks.map Task.threadName).Nodup ∧
        tasks.map Task.threadName = ["sender_task-0", "sender_task-1", "receiver_task-2",
          "prio_sender_task-3", "prio_receiver_task-4", "prio_receiver_task-5"] := by
  intro w
  obtain ⟨hcount, hlisted, -⟩ := tasks_expand (w := w) (n := 6) (by decide) (by decide)
  obtain ⟨tasks, htasks, -, -, -, hnodup⟩ := hlisted (by decide)
  obtain rfl : w.taskList = tasks := Except.ok.inj htasks
  exact ⟨by decide, by decide, hcount, by decide, _, htasks, hnodup, by decide⟩

/-- The least number of tasks that can be counted and not be listed. -/
theorem tasks_refused :
    let w : Workload := { outboundNormal := 288230376151711744 }
    w.outboundNormal + w.inboundNormal + w.outboundElevated + w.inboundElevated ≤ Word.max64 ∧
      w.taskCount = .ok 288230376151711744 ∧
      w.outboundNormal = Word.maxBytes / Task.bytes + 1 ∧ w.tasks = .error .capacity ∧
      ¬ ∃ tasks, w.tasks = .ok tasks := by
  intro w
  have hrefused : w.tasks = .error .capacity := by decide
  refine ⟨by decide, by decide, by decide, hrefused, ?_⟩
  rintro ⟨tasks, htasks⟩
  rw [hrefused] at htasks
  cases htasks

end Workload

end HalfDuplex
