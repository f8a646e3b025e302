import TaggedRuntime.Proofs.Growth

namespace TaggedRuntime

namespace Value

/-- The values that take a slot of their own. -/
def boxed : Value → Bool
  | nil | bool _ => false
  | number _ | string _ | function _ => true

/-- Both are nil, or both are the same boolean, and so they have one place. -/
def SharePlace (v w : Value) : Prop := v = nil ∧ w = nil ∨ ∃ b, v = bool b ∧ w = bool b

theorem SharePlace.not_boxed {v w : Value} (share : v.SharePlace w) : v.boxed = false ∧ w.boxed = false := by
  rcases share with ⟨rfl, rfl⟩ | ⟨b, rfl, rfl⟩
  · exact ⟨rfl, rfl⟩
  · exact ⟨rfl, rfl⟩

theorem SharePlace.symm {v w : Value} (share : v.SharePlace w) : w.SharePlace v :=
  share.imp And.symm fun ⟨b, left, right⟩ => ⟨b, right, left⟩

end Value

namespace Heap

theorem Grows.trans {h later last : Heap} (first : h.Grows later) (second : later.Grows last) : h.Grows last :=
  List.IsPrefix.trans first second

/-- No slot is spent on a value that has a shared place. -/
def Regular (h : Heap) : Prop := ∀ v ∈ h.slots, v.boxed = true

theorem regular_empty : Regular {} := by
  intro v member
  cases member

theorem Regular.alloc {h : Heap} (regular : h.Regular) (v : Value) : (h.alloc v).2.Regular := by
  cases v with
  | nil | bool => exact regular
  | _ => exact List.forall_mem_append.mpr ⟨regular, List.forall_mem_singleton.mpr rfl⟩

theorem live_alloc (h : Heap) (v : Value) : (h.alloc v).2.live = h.live + if v.boxed then 1 else 0 := by
  cases v <;> simp [Heap.alloc, live, Value.boxed]

theorem Regular.boxed_read {h : Heap} (regular : h.Regular) {index : Nat} (holds : h.Holds (.slot index)) :
    (h.read (.slot index)).boxed = true := by
  have within : index < h.slots.length := holds
  simp only [read, List.getD_eq_getElem?_getD, List.getElem?_eq_getElem within, Option.getD_some]
  exact regular _ (List.getElem_mem within)

/-- A value is given a place in use only if it shares that place with the value there. -/
theorem Regular.alloc_eq_iff {h : Heap} (regular : h.Regular) {ref : Ref} (holds : h.Holds ref) (v : Value) :
    (h.alloc v).1 = ref ↔ v.SharePlace (h.read ref) := by
  cases ref with
  | nil => cases v <;> simp [Heap.alloc, read, Value.SharePlace]
  | bool b => cases v <;> simp [Heap.alloc, read, Value.SharePlace, eq_comm]
  | slot index =>
    constructor
    · intro same
      have within : index < h.slots.length := holds
      cases v with
      | nil | bool => cases same
      | _ => exact absurd (Ref.slot.inj same) (Nat.ne_of_gt within)
    · intro share
      cases share.not_boxed.2.symm.trans (regular.boxed_read holds)

/-- The heap after values have been allocated in order. -/
def after (h : Heap) (values : List Value) : Heap := values.foldl (fun heap v => (heap.alloc v).2) h

theorem after_append (h : Heap) (first second : List Value) :
    h.after (first ++ second) = (h.after first).after second := List.foldl_append

theorem after_grows (h : Heap) (values : List Value) : h.Grows (h.after values) := by
  induction values generalizing h with
  | nil => exact .refl h
  | cons v values ih => exact (h.alloc_grows v).trans (ih _)

theorem Regular.after {h : Heap} (regular : h.Regular) (values : List Value) : (h.after values).Regular := by
  induction values generalizing h with
  | nil => exact regular
  | cons v values ih => exact ih (regular.alloc v)

theorem live_after (h : Heap) (values : List Value) :
    (h.after values).live = h.live + values.countP Value.boxed := by
  induction values generalizing h with
  | nil => rfl
  | cons v values ih =>
    have rest : (h.after (v :: values)).live = (h.alloc v).2.live + values.countP Value.boxed := ih _
    rw [rest, live_alloc, List.countP_cons]
    omega

theorem length_allocAll (h : Heap) (values : List Value) : (allocAll h values).length = values.length := by
  induction values generalizing h with
  | nil => rfl
  | cons v values ih => rw [allocAll, List.length_cons, ih, List.length_cons]

theorem getElem?_allocAll (h : Heap) (values : List Value) (k : Nat) :
    (allocAll h values)[k]? = values[k]?.map (h.after (values.take k)).alloc := by
  induction values generalizing h k with
  | nil => rfl
  | cons v values ih =>
    cases k with
    | zero => rfl
    | succ k => exact ih (h.alloc v).2 k

/-- One allocation further. -/
theorem after_take_succ (h : Heap) {values : List Value} {k : Nat} {v : Value} (atK : values[k]? = some v) :
    h.after (values.take (k + 1)) = ((h.after (values.take k)).alloc v).2 := by
  rw [List.take_add_one, atK, after_append]
  rfl

theorem after_take_grows (h : Heap) (values : List Value) {k j : Nat} (order : k ≤ j) :
    (h.after (values.take k)).Grows (h.after (values.take j)) := by
  obtain ⟨rest, whole⟩ : values.take k <+: values.take j := List.take_prefix_take_left order
  rw [← whole, after_append]
  exact after_grows _ _

/-- A place that was given for a value still reads as it after any later allocations. -/
theorem after_take_read (h : Heap) {values : List Value} {k j : Nat} {v : Value} (atK : values[k]? = some v)
    (order : k < j) : (h.after (values.take j)).Holds ((h.after (values.take k)).alloc v).1 ∧
      (h.after (values.take j)).read ((h.after (values.take k)).alloc v).1 = v := by
  have grows := h.after_take_grows values (Nat.succ_le_of_lt order)
  rw [h.after_take_succ atK] at grows
  have holds := (h.after (values.take k)).alloc_holds v
  exact ⟨grows.holds holds, (grows.read holds).trans (read_alloc _ v)⟩

/-- Of two allocations the later one gives the place of the earlier one only for the same shared value. -/
theorem Regular.later_place_eq_iff {h : Heap} (regular : h.Regular) {values : List Value} {k j : Nat} {v w : Value}
    (atK : values[k]? = some v) (order : k < j) :
    ((h.after (values.take j)).alloc w).1 = ((h.after (values.take k)).alloc v).1 ↔ w.SharePlace v := by
  obtain ⟨holds, reads⟩ := h.after_take_read atK order
  rw [(regular.after _).alloc_eq_iff holds, reads]

theorem Regular.place_eq_iff {h : Heap} (regular : h.Regular) {values : List Value} {k j : Nat} {v w : Value}
    (atK : values[k]? = some v) (atJ : values[j]? = some w) (other : k ≠ j) :
    ((h.after (values.take k)).alloc v).1 = ((h.after (values.take j)).alloc w).1 ↔ v.SharePlace w := by
  rcases Nat.lt_or_gt_of_ne other with before | after
  · rw [eq_comm, regular.later_place_eq_iff atK before]
    exact ⟨.symm, .symm⟩
  · exact regular.later_place_eq_iff atJ after

end Heap

/-- Where the values of a heap are in memory: those that all heaps share, and the boxes in the order in
which they were asked for. A new box is at none of the fixed addresses and at none of the boxes before. -/
structure Addresses (α : Type) where
  null : α
  nil : α
  bool : Bool → α
  box : Nat → α
  fixed_nodup : [null, nil, bool false, bool true].Nodup
  box_fresh : ∀ i, box i ∉ [null, nil, bool false, bool true] ∧ ∀ j < i, box i ≠ box j

namespace Addresses

/-- An allocator that never takes a box back: addresses in the order in which they are needed. -/
def consecutive : Addresses Nat where
  null := 0
  nil := 1
  bool b := if b then 3 else 2
  box i := i + 4
  fixed_nodup := by decide
  box_fresh i := ⟨by simp, fun j before => by simpa using Nat.ne_of_gt before⟩

variable {α : Type}

/-- What compiled code sees of a handle. -/
def pointer (A : Addresses α) : Handle → α
  | none => A.null
  | some .nil => A.nil
  | some (.bool b) => A.bool b
  | some (.slot index) => A.box index

theorem box_inj (A : Addresses α) {i j : Nat} : A.box i = A.box j ↔ i = j := by
  constructor
  · intro same
    rcases Nat.lt_trichotomy i j with before | equal | after
    · exact absurd same.symm ((A.box_fresh j).2 i before)
    · exact equal
    · exact absurd same ((A.box_fresh i).2 j after)
  · exact congrArg A.box

theorem pointer_inj (A : Addresses α) {a b : Handle} : A.pointer a = A.pointer b ↔ a = b := by
  have fixed := A.fixed_nodup
  have fresh := fun i => (A.box_fresh i).1
  simp only [List.nodup_cons, List.mem_cons, List.not_mem_nil, or_false, not_or, List.nodup_nil, and_true,
    not_false_eq_true] at fixed fresh
  obtain ⟨⟨_, _, _⟩, ⟨_, _⟩, _⟩ := fixed
  constructor
  · intro same
    rcases a with _ | _ | (_ | _) | i <;> rcases b with _ | _ | (_ | _) | j <;>
      simp_all [pointer, box_inj, eq_comm]
  · exact congrArg A.pointer

end Addresses

end TaggedRuntime
