import TaggedRuntime.Call

namespace TaggedRuntime

namespace Heap

/-- The place is shared by all heaps, or it is a slot in use here. -/
def Holds (h : Heap) : Ref → Prop
  | .nil | .bool _ => True
  | .slot index => index < h.live

/-- Slots are only added, after those in use. -/
def Grows (h later : Heap) : Prop := h.slots <+: later.slots

theorem Grows.refl (h : Heap) : h.Grows h := List.prefix_refl _

theorem Grows.holds {h later : Heap} (grows : h.Grows later) {ref : Ref} (holds : h.Holds ref) :
    later.Holds ref := by
  cases ref with
  | slot index => exact Nat.lt_of_lt_of_le holds grows.length_le
  | _ => trivial

/-- What has a place keeps it. -/
theorem Grows.read {h later : Heap} (grows : h.Grows later) {ref : Ref} (holds : h.Holds ref) :
    later.read ref = h.read ref := by
  cases ref with
  | slot index =>
    have before : index < h.slots.length := holds
    have same := List.prefix_iff_getElem?.mp grows index before
    simp only [Heap.read, List.getD_eq_getElem?_getD, same, List.getElem?_eq_getElem before]
  | _ => rfl

theorem alloc_grows (h : Heap) (v : Value) : h.Grows (h.alloc v).2 := by
  cases v with
  | nil | bool => exact List.prefix_refl _
  | _ => exact List.prefix_append ..

theorem alloc_holds (h : Heap) (v : Value) : (h.alloc v).2.Holds (h.alloc v).1 := by
  cases v with
  | nil | bool => trivial
  | _ => simp [alloc, Holds, live]

@[simp] theorem read_alloc (h : Heap) (v : Value) : (h.alloc v).2.read (h.alloc v).1 = v := by
  cases v <;> simp [alloc, read]

end Heap

namespace Thread

/-- Every handle that the thread was given is null or has a place in its heap. -/
def Sound (t : Thread) : Prop := ∀ ref, some ref ∈ t.registers → t.heap.Holds ref

/-- Values and registers are only added. -/
structure Grows (t later : Thread) : Prop where
  heap : t.heap.Grows later.heap
  registers : t.registers <+: later.registers

theorem sound_fresh : Sound {} := by
  intro ref member
  cases member

theorem Grows.refl (t : Thread) : t.Grows t := ⟨.refl _, List.prefix_refl _⟩

theorem keep_grows (t : Thread) (h : Handle) : t.Grows (t.keep h) := ⟨.refl _, List.prefix_append ..⟩

theorem publish_grows (t : Thread) (v : Value) : t.Grows (t.publish v) :=
  ⟨t.heap.alloc_grows v, List.prefix_append ..⟩

theorem Sound.keep_none {t : Thread} (sound : t.Sound) : (t.keep none).Sound := by
  intro ref member
  simp only [keep, List.mem_append, List.mem_singleton, reduceCtorEq, or_false] at member
  exact sound ref member

theorem Sound.publish {t : Thread} (sound : t.Sound) (v : Value) : (t.publish v).Sound := by
  intro ref member
  simp only [Thread.publish, List.mem_append, List.mem_singleton, Option.some.injEq] at member
  rcases member with old | new
  · exact (t.heap.alloc_grows v).holds (sound ref old)
  · exact new ▸ t.heap.alloc_holds v

/-- A handle of the thread reads at any later time as it did. -/
theorem Sound.deref {t later : Thread} (sound : t.Sound) (grows : t.Grows later) {handle : Handle}
    (given : handle ∈ t.registers) : later.deref handle = t.deref handle := by
  cases handle with
  | none => rfl
  | some ref => exact grows.heap.read (sound ref given)

end Thread

/-- A call that returns adds nothing to its thread, or a null handle, or a value with its handle. -/
theorem Call.run_thread {c : Call} {t later : Thread} {host : Host}
    (returns : (c.run t host).thread = some later) :
    later = t ∨ later = t.keep none ∨ ∃ v, later = t.publish v := by
  cases c with
  | null => exact .inr (.inl (Option.some.inj returns).symm)
  | produce p =>
    cases result : p.eval t.read with
    | ok v =>
      simp only [run, result] at returns
      exact .inr (.inr ⟨v, (Option.some.inj returns).symm⟩)
    | error f =>
      simp only [run, result] at returns
      cases returns
  | abort a => cases returns
  | _ => exact .inl (Option.some.inj returns).symm

theorem Call.run_grows {c : Call} {t later : Thread} {host : Host}
    (returns : (c.run t host).thread = some later) : t.Grows later := by
  rcases run_thread returns with rfl | rfl | ⟨v, rfl⟩
  · exact .refl _
  · exact t.keep_grows none
  · exact t.publish_grows v

theorem Call.run_sound {c : Call} {t later : Thread} {host : Host}
    (returns : (c.run t host).thread = some later) (sound : t.Sound) : later.Sound := by
  rcases run_thread returns with rfl | rfl | ⟨v, rfl⟩
  · exact sound
  · exact sound.keep_none
  · exact sound.publish v

end TaggedRuntime
