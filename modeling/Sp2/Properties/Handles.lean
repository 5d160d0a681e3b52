import Sp2.Devices.Handles
import Sp2.Lib.History
import Sp2.Lib.Linked

/-!
The pool of device handles.

* `DevState`: the module with the handles that callers hold; `devStep`, its calls.
* `HandlesPooled`: the free list is a chain of the handles nobody holds, each once, and the handles
  held are distinct.
* `HandlesPooled.step_iff`: a call keeps that exactly if it is no close of a ramdisk or primary IDE
  handle (`FreesTwice`): such a close puts the handle into the free list twice, which links
  it to itself.
* `handles_pooled_iff`: so does a run of calls.
* `handle_aliased`: one close later two callers hold the same handle.
-/

namespace Sp2

open Transition Linked

/-! ### The calls -/

/-- A call of the module. -/
inductive DevCall
  | open (deviceNum : UInt8)
  | close (dev : Option DeviceId)
  deriving DecidableEq

/-- The module, and the handles that have been returned and not closed since. -/
structure DevState extends Devices where
  held : List DeviceId

/-- One call. -/
def devStep (s : DevState) : DevCall → Except Empty DevState
  | .open deviceNum =>
      let r := devOpen deviceNum s.toDevices
      .ok { toDevices := r.2, held := s.held ++ r.1.toList }
  | .close dev =>
      .ok { toDevices := devClose dev s.toDevices, held := s.held.filter (some · ≠ dev) }

/-- A handle is closed only while it is held. -/
def DevUsage (s : DevState) : DevCall → Prop
  | .open _ => True
  | .close none => True
  | .close (some dev) => dev ∈ s.held

instance (s : DevState) : (c : DevCall) → Decidable (DevUsage s c)
  | .open _ => inferInstanceAs (Decidable True)
  | .close none => inferInstanceAs (Decidable True)
  | .close (some dev) => inferInstanceAs (Decidable (dev ∈ s.held))

/-- The state after `_dev_init`. -/
def devStart : DevState := { toDevices := devInit, held := [] }

/-- The free list is acyclic and has each handle that is not held exactly once and no other,
and the handles held are distinct. -/
structure HandlesPooled (s : DevState) : Prop where
  free_list : ∃ l, Chain s.next s.freeDeviceHandles l ∧ l.Nodup ∧ ∀ dev, dev ∈ l ↔ dev ∉ s.held
  distinct : s.held.Nodup

/-- The call closes a handle whose device has a close function of its own. -/
def FreesTwice (s : DevState) : DevCall → Prop
  | .close (some dev) =>
      (s.handles dev).identifier = devRamdisk ∨ (s.handles dev).identifier = devIdePri
  | _ => False

instance (s : DevState) : (c : DevCall) → Decidable (FreesTwice s c)
  | .close (some _) => inferInstanceAs (Decidable (_ ∨ _))
  | .close none => inferInstanceAs (Decidable False)
  | .open _ => inferInstanceAs (Decidable False)

/-! ### The links -/

namespace Devices

variable {s : Devices} {dev : DeviceId} {r : Device} {l : List DeviceId}

@[simp] lemma set_freeDeviceHandles : (s.set dev r).freeDeviceHandles = s.freeDeviceHandles := rfl

@[simp] lemma next_set : (s.set dev r).next = Function.update s.next dev r.next := by
  funext d
  by_cases h : d = dev
  · subst h
    simp [next, set]
  · simp [next, set, h]

/-- A record rewritten with its link kept changes no link. -/
lemma next_set_of_next (h : r.next = s.next dev) : (s.set dev r).next = s.next := by
  rw [next_set, h, Function.update_eq_self]

@[simp] lemma dealloc_next :
    (devDeallocHandle dev s).next = Function.update s.next dev s.freeDeviceHandles := next_set

@[simp] lemma dealloc_freeDeviceHandles :
    (devDeallocHandle dev s).freeDeviceHandles = some dev := rfl

/-- A handle that is not in the free list is linked in at its head. -/
lemma chain_dealloc (h : Chain s.next s.freeDeviceHandles l) (hdev : dev ∉ l) :
    Chain (devDeallocHandle dev s).next (devDeallocHandle dev s).freeDeviceHandles (dev :: l) := by
  rw [dealloc_next, dealloc_freeDeviceHandles]
  refine ⟨rfl, ?_⟩
  rw [Function.update_self]
  exact h.update hdev

/-- A handle that is at the head of the free list already is linked to itself. -/
lemma not_chain_dealloc (h : s.freeDeviceHandles = some dev) :
    ¬ Chain (devDeallocHandle dev s).next (devDeallocHandle dev s).freeDeviceHandles l := by
  rw [dealloc_next, dealloc_freeDeviceHandles, h]
  intro hl
  obtain ⟨r, rfl, hr⟩ := chain_some.mp hl
  rw [Function.update_self] at hr
  -- a link determines its chain, so the chain would be its own tail
  have hlen := congrArg List.length (hl.unique hr)
  simp at hlen

lemma next_rdOpen : (rdOpen dev s).next = s.next := next_set_of_next rfl

lemma next_ataOpen : (ataOpen dev s).next = s.next := next_set_of_next rfl

/-- What an open does to the free list: it takes the head. -/
lemma open_free (deviceNum : UInt8) (h : Chain s.next s.freeDeviceHandles l) :
    (devOpen deviceNum s).1 = l.head? ∧
      Chain (devOpen deviceNum s).2.next (devOpen deviceNum s).2.freeDeviceHandles l.tail := by
  cases l with
  | nil =>
      have hfree : s.freeDeviceHandles = none := h
      simp [devOpen, devAllocHandle, hfree]
  | cons dev l =>
      have hnd := h.nodup
      obtain ⟨hfree, hl⟩ := chain_cons.mp h
      obtain ⟨hdev, -⟩ := List.nodup_cons.mp hnd
      have hrest := hl.update (c := none) hdev
      simp only [devOpen, devAllocHandle, hfree]
      refine ⟨rfl, ?_⟩
      split_ifs
      · rw [next_rdOpen]
        exact next_set ▸ hrest
      · rw [next_ataOpen]
        exact next_set ▸ hrest
      · exact next_set ▸ hrest

/-- The records put into the free list one by one. -/
lemma chain_foldl (ds : List DeviceId) (h : Chain s.next s.freeDeviceHandles l)
    (hnd : (ds ++ l).Nodup) :
    let s' := ds.foldl (fun s dev => devDeallocHandle dev s) s
    Chain s'.next s'.freeDeviceHandles (ds.reverse ++ l) := by
  induction ds generalizing s l with
  | nil => exact h
  | cons dev ds ih =>
      obtain ⟨hdev, hnd'⟩ := List.nodup_cons.mp hnd
      have hl : dev ∉ l := fun hmem => hdev (List.mem_append_right ds hmem)
      have hperm : (dev :: (ds ++ l)).Perm (ds ++ dev :: l) := List.perm_middle.symm
      have hrun := ih (chain_dealloc h hl) (hperm.nodup_iff.mp hnd)
      simpa using hrun

end Devices

/-! ### One call -/

section Step

variable {s s' : DevState} {c : DevCall} {dev : DeviceId} {es : List DevCall}

open Devices

lemma pooled_start : HandlesPooled devStart where
  free_list := by
    refine ⟨(List.finRange devMaxDevices).reverse, ?_, ?_, ?_⟩
    · have hempty : Chain (ι := DeviceId) (fun _ => none) none [] := rfl
      have h := chain_foldl (s := ⟨fun _ => Device.zero, none⟩) (List.finRange devMaxDevices)
        hempty (by simpa using List.nodup_finRange devMaxDevices)
      simpa [devStart, devInit] using h
    · exact List.nodup_reverse.mpr (List.nodup_finRange _)
    · intro dev
      simp [devStart]
  distinct := List.nodup_nil

/-- An open takes the head of the free list, which nobody holds. -/
lemma HandlesPooled.open (h : HandlesPooled s) {deviceNum : UInt8}
    (hs : devStep s (.open deviceNum) = .ok s') : HandlesPooled s' := by
  obtain ⟨l, hl, hnd, hmem⟩ := h.free_list
  obtain ⟨hhead, htail⟩ := open_free deviceNum hl
  obtain rfl := Except.ok.inj hs
  cases l with
  | nil =>
      refine ⟨⟨[], htail, List.nodup_nil, fun dev => ?_⟩, ?_⟩
      · simpa [hhead] using hmem dev
      · simpa [hhead] using h.distinct
  | cons d l =>
      obtain ⟨hd, hnd'⟩ := List.nodup_cons.mp hnd
      have hfresh : d ∉ s.held := (hmem d).mp List.mem_cons_self
      refine ⟨⟨l, htail, hnd', fun dev => ?_⟩, ?_⟩
      · have hdev := hmem dev
        by_cases heq : dev = d
        · subst heq
          simpa [hhead] using hd
        · simpa [hhead, heq] using hdev
      · simpa [hhead] using h.distinct.concat hfresh

/-- A close of a handle without a close function of its own links it in again. -/
lemma HandlesPooled.close (h : HandlesPooled s) (hheld : dev ∈ s.held)
    (hone : ¬ FreesTwice s (.close (some dev)))
    (hs : devStep s (.close (some dev)) = .ok s') : HandlesPooled s' := by
  obtain ⟨l, hl, hnd, hmem⟩ := h.free_list
  obtain rfl := Except.ok.inj hs
  have hdev : dev ∉ l := fun hin => (hmem dev).mp hin hheld
  obtain ⟨hrd, hata⟩ := not_or.mp hone
  refine ⟨⟨dev :: l, ?_, List.nodup_cons.mpr ⟨hdev, hnd⟩, fun d => ?_⟩, h.distinct.filter _⟩
  · simp only [devClose, if_neg hrd, if_neg hata]
    exact chain_dealloc hl hdev
  · have hd := hmem d
    by_cases heq : d = dev
    · simp [heq]
    · simp [heq, hd]

/-- A close of another handle puts it into the free list twice in a row. -/
lemma not_pooled_close (htwice : FreesTwice s (.close (some dev)))
    (hs : devStep s (.close (some dev)) = .ok s') : ¬ HandlesPooled s' := by
  rintro ⟨⟨l, hl, -⟩, -⟩
  obtain rfl := Except.ok.inj hs
  refine not_chain_dealloc ?_ hl
  by_cases hrd : (s.handles dev).identifier = devRamdisk
  · rw [if_pos hrd]
    rfl
  · rw [if_neg hrd, if_pos (htwice.resolve_left hrd)]
    rfl

/-- A call keeps the pool exactly if it does not put a handle into it twice. -/
theorem HandlesPooled.step_iff (h : HandlesPooled s) (hu : DevUsage s c)
    (hs : devStep s c = .ok s') :
    HandlesPooled s' ↔ ¬ FreesTwice s c := by
  cases c with
  | «open» deviceNum => exact iff_of_true (h.open hs) id
  | close dev =>
      cases dev with
      | none =>
          obtain rfl := Except.ok.inj hs
          refine iff_of_true ⟨?_, h.distinct.filter _⟩ id
          simpa [devClose] using h.free_list
      | some dev =>
          by_cases htwice : FreesTwice s (.close (some dev))
          · exact iff_of_false (not_pooled_close htwice hs) (not_not_intro htwice)
          · exact iff_of_true (h.close hu htwice hs) htwice

end Step

/-! ### Runs -/

/-- **Exactly when the handles stay pooled**: when no handle of the ramdisk or of the primary
IDE channel is closed. -/
theorem handles_pooled_iff {es : List DevCall} {s : DevState}
    (h : Transition.Run devStep DevUsage devStart es s) :
    Throughout devStep DevUsage HandlesPooled devStart es ↔
      ∀ t ∈ trace devStep devStart es, ¬ FreesTwice t.before t.event :=
  h.always_iff pooled_start fun _ _ _ hp hu hs => hp.step_iff hu hs

/-- A ramdisk and a handle of no device are opened, and the second is closed. -/
theorem handles_pooled_iff_opened :
    Throughout devStep DevUsage HandlesPooled devStart
      [.open devRamdisk, .open 0, .close (some 254)] := by
  obtain ⟨s, hs, -⟩ := exists_run devStep DevUsage devStart
    [.open devRamdisk, .open 0, .close (some 254)] (f := fun _ => ()) (b := ()) (by decide +kernel)
  exact (handles_pooled_iff hs).mpr (by decide +kernel)

/-- A ramdisk is opened and closed; the next two opens return the same handle. -/
theorem handle_aliased :
    ¬ ∀ es s, Transition.Run devStep DevUsage devStart es s → HandlesPooled s := by
  intro hall
  obtain ⟨s, hs, hheld⟩ := exists_run devStep DevUsage devStart
    [.open devRamdisk, .close (some 255), .open devRamdisk, .open devRamdisk]
    (f := fun s => s.held) (b := [255, 255]) (by decide +kernel)
  have h := (hall _ s hs).distinct
  rw [hheld] at h
  exact absurd h (by decide)

end Sp2
