import NativeBinding.Marshal.Basic
import NativeBinding.Proofs.Success

/-! # Writing fields over memory

Fields that lie apart are written independently: each ends up with what was written for it, and all
other octets stay as they were.
-/

set_option autoImplicit false

namespace NativeBinding.Marshaler

def part (offset size : Nat) (octets : List UInt8) : List UInt8 :=
  (octets.drop offset).take size

theorem slot_eq_part (f : FieldLayout) (octets : List UInt8) :
    slot f octets = part f.offset f.size octets := rfl

theorem length_part {offset size : Nat} {octets : List UInt8}
    (h : offset + size ≤ octets.length) : (part offset size octets).length = size := by
  rw [part, List.length_take, List.length_drop]
  omega

theorem getElem?_part {offset size i : Nat} (octets : List UInt8) (h : i < size) :
    (part offset size octets)[i]? = octets[offset + i]? := by
  rw [part, List.getElem?_take_of_lt h, List.getElem?_drop]

theorem getElem?_part_of_le {offset size i : Nat} (octets : List UInt8) (h : size ≤ i) :
    (part offset size octets)[i]? = none := by
  rw [List.getElem?_eq_none_iff, part, List.length_take]
  omega

theorem part_part {offset size offset' size' : Nat} (octets : List UInt8)
    (h : offset' + size' ≤ size) :
    part offset' size' (part offset size octets) = part (offset + offset') size' octets := by
  rw [part, part, part, List.drop_take, List.take_take, List.drop_drop]
  congr 1
  omega

theorem part_congr {offset size : Nat} {octets octets' : List UInt8}
    (h : ∀ i, offset ≤ i → i < offset + size → octets[i]? = octets'[i]?) :
    part offset size octets = part offset size octets' := by
  refine List.ext_getElem? fun i => ?_
  rcases Nat.lt_or_ge i size with hLt | hGe
  · rw [getElem?_part _ hLt, getElem?_part _ hLt]
    exact h _ (Nat.le_add_right _ _) (by omega)
  · rw [getElem?_part_of_le _ hGe, getElem?_part_of_le _ hGe]

variable {octets written : List UInt8} {offset i : Nat}

theorem length_overwrite (h : offset + written.length ≤ octets.length) :
    (overwrite octets offset written).length = octets.length := by
  simp only [overwrite, List.length_append, List.length_take, List.length_drop]
  omega

theorem getElem?_overwrite_inside (h : offset + written.length ≤ octets.length)
    (hLe : offset ≤ i) (hLt : i < offset + written.length) :
    (overwrite octets offset written)[i]? = written[i - offset]? := by
  have hTake : (octets.take offset).length = offset := by rw [List.length_take]; omega
  rw [overwrite, List.append_assoc, List.getElem?_append_right (by omega), hTake,
    List.getElem?_append_left (by omega)]

theorem getElem?_overwrite_outside (h : offset + written.length ≤ octets.length)
    (hOut : ¬ (offset ≤ i ∧ i < offset + written.length)) :
    (overwrite octets offset written)[i]? = octets[i]? := by
  have hTake : (octets.take offset).length = offset := by rw [List.length_take]; omega
  rcases Nat.lt_or_ge i offset with hLt | hGe
  · rw [overwrite, List.append_assoc, List.getElem?_append_left (by omega),
      List.getElem?_take_of_lt hLt]
  · have hBoth : (octets.take offset ++ written).length = offset + written.length := by
      rw [List.length_append, hTake]
    rw [overwrite, List.getElem?_append_right (by omega), hBoth, List.getElem?_drop]
    congr 1
    omega

theorem part_overwrite (h : offset + written.length ≤ octets.length) :
    part offset written.length (overwrite octets offset written) = written := by
  refine List.ext_getElem? fun i => ?_
  rcases Nat.lt_or_ge i written.length with hLt | hGe
  · rw [getElem?_part _ hLt, getElem?_overwrite_inside h (by omega) (by omega)]
    congr 1
    omega
  · rw [getElem?_part_of_le _ hGe, List.getElem?_eq_none hGe]

/-- An octet at which no field of the list lies. -/
def Outside (fields : List FieldLayout) (i : Nat) : Prop :=
  ∀ f ∈ fields, ¬ (f.offset ≤ i ∧ i < f.offset + f.size)

variable {ε : Type} {write : FieldLayout → List UInt8 → Except ε (List UInt8)}
  {fields : List FieldLayout} {before after : List UInt8}

/-- What writing fields leaves: every field written over what its slot held, all else unchanged. -/
structure Written (write : FieldLayout → List UInt8 → Except ε (List UInt8))
    (fields : List FieldLayout) (before after : List UInt8) : Prop where
  length : after.length = before.length
  slots : ∀ f ∈ fields, write f (slot f before) = .ok (slot f after)
  rest : ∀ i, Outside fields i → after[i]? = before[i]?

/-- Fields that lie apart, inside memory, and are given as many octets as they have. -/
structure Separate (write : FieldLayout → List UInt8 → Except ε (List UInt8)) (room : Nat)
    (fields : List FieldLayout) : Prop where
  apart : fields.Pairwise fun f g => f.offset + f.size ≤ g.offset
  inside : ∀ f ∈ fields, f.offset + f.size ≤ room
  keeps : ∀ f ∈ fields, ∀ memory written, memory.length = f.size →
    write f memory = .ok written → written.length = f.size

def writeAll (write : FieldLayout → List UInt8 → Except ε (List UInt8)) (fields : List FieldLayout)
    (before : List UInt8) : Except ε (List UInt8) :=
  fields.foldlM (fun octets f => do
    let written ← write f (slot f octets)
    pure (overwrite octets f.offset written)) before

theorem writeAll_cons {f : FieldLayout} :
    writeAll write (f :: fields) before = .ok after ↔
      ∃ written, write f (slot f before) = .ok written ∧
        writeAll write fields (overwrite before f.offset written) = .ok after := by
  rw [writeAll, List.foldlM_cons, bind_eq_ok_iff]
  constructor
  · rintro ⟨_, hFirst, hRest⟩
    obtain ⟨written, hWrite, hEq⟩ := bind_eq_ok_iff.mp hFirst
    cases hEq
    exact ⟨written, hWrite, hRest⟩
  · rintro ⟨written, hWrite, hRest⟩
    exact ⟨_, bind_eq_ok_iff.mpr ⟨written, hWrite, rfl⟩, hRest⟩

namespace Separate

variable {f : FieldLayout}

theorem tail {room : Nat} (h : Separate write room (f :: fields)) : Separate write room fields where
  apart := (List.pairwise_cons.mp h.apart).2
  inside g hg := h.inside g (List.mem_cons_of_mem _ hg)
  keeps g hg := h.keeps g (List.mem_cons_of_mem _ hg)

theorem fits (h : Separate write before.length (f :: fields)) {written : List UInt8}
    (hWritten : written.length = f.size) : f.offset + written.length ≤ before.length := by
  rw [hWritten]
  exact h.inside f List.mem_cons_self

theorem length_written (h : Separate write before.length (f :: fields)) {written : List UInt8}
    (hWrite : write f (slot f before) = .ok written) : written.length = f.size :=
  h.keeps f List.mem_cons_self _ _ (length_part (h.inside f List.mem_cons_self)) hWrite

theorem slot_overwrite (h : Separate write before.length (f :: fields)) {written : List UInt8}
    (hWritten : written.length = f.size) {g : FieldLayout} (hg : g ∈ fields) :
    slot g (overwrite before f.offset written) = slot g before := by
  have hAfter := (List.pairwise_cons.mp h.apart).1 g hg
  refine part_congr fun i hLe _ => getElem?_overwrite_outside (h.fits hWritten) ?_
  omega

theorem overwritten (h : Separate write before.length (f :: fields)) {written : List UInt8}
    (hWritten : written.length = f.size) :
    Separate write (overwrite before f.offset written).length fields := by
  rw [length_overwrite (h.fits hWritten)]
  exact h.tail

theorem exists_writeAll (h : Separate write before.length fields)
    (hFields : ∀ f ∈ fields, ∃ written, write f (slot f before) = .ok written) :
    ∃ after, writeAll write fields before = .ok after := by
  induction fields generalizing before with
  | nil => exact ⟨before, rfl⟩
  | cons f fields ih =>
    obtain ⟨written, hWrite⟩ := hFields f List.mem_cons_self
    have hWritten := h.length_written hWrite
    obtain ⟨after, hAfter⟩ := ih (h.overwritten hWritten) fun g hg => by
      rw [h.slot_overwrite hWritten hg]
      exact hFields g (List.mem_cons_of_mem _ hg)
    exact ⟨after, writeAll_cons.mpr ⟨written, hWrite, hAfter⟩⟩

theorem written_of_writeAll (h : Separate write before.length fields)
    (hWrite : writeAll write fields before = .ok after) : Written write fields before after := by
  induction fields generalizing before with
  | nil =>
    cases hWrite
    exact ⟨rfl, by simp, fun _ _ => rfl⟩
  | cons f fields ih =>
    obtain ⟨written, hFirst, hRest⟩ := writeAll_cons.mp hWrite
    have hWritten := h.length_written hFirst
    have hDone := ih (h.overwritten hWritten) hRest
    refine ⟨hDone.length.trans (length_overwrite (h.fits hWritten)), fun g hg => ?_,
      fun i hOut => ?_⟩
    · rcases List.mem_cons.mp hg with rfl | hg
      · have hKept : slot g after = slot g (overwrite before g.offset written) := by
          refine part_congr fun i hLe hLt => hDone.rest i fun g' hg' => ?_
          have hAfter := (List.pairwise_cons.mp h.apart).1 g' hg'
          omega
        rw [hFirst, hKept, slot_eq_part, ← hWritten, part_overwrite (h.fits hWritten)]
      · rw [← h.slot_overwrite hWritten hg]
        exact hDone.slots g hg
    · rw [hDone.rest i fun g hg => hOut g (List.mem_cons_of_mem _ hg)]
      exact getElem?_overwrite_outside (h.fits hWritten) (hWritten ▸ hOut f List.mem_cons_self)

end Separate

end NativeBinding.Marshaler
