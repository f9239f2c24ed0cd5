import NativeBinding.Proofs.Layout.Recursion
import NativeBinding.Proofs.Marshal.Fields
import NativeBinding.Proofs.Model.Coherence

/-! # Slots inside memory

Reading and writing once more, with every slot checked against the memory that it is taken from: a
slot that is not inside ends the whole with a refusal. In the memory of a struct the checks change
nothing, at any depth and for any refusal, so every slot taken is inside. With the layouts of an
accepted model this is the last of what the main statement says about them.
-/

set_option autoImplicit false

namespace NativeBinding

namespace Marshaler

/-- The slot of a field, refused where it does not lie inside the memory. -/
def checkedSlot (refusal : MarshalError) (f : FieldLayout) (octets : List UInt8) :
    Except MarshalError (List UInt8) :=
  if f.offset + f.size ≤ octets.length then .ok (slot f octets) else .error refusal

/-- Octets put into the slot of a field, refused where they do not fill it. -/
def checkedOverwrite (refusal : MarshalError) (f : FieldLayout) (octets part : List UInt8) :
    Except MarshalError (List UInt8) :=
  if part.length = f.size then .ok (overwrite octets f.offset part) else .error refusal

def readField (m : Marshaler) (refusal : MarshalError)
    (nested : StructLayout → List UInt8 → Except MarshalError Record) (owner : String)
    (octets : List UInt8) (f : FieldLayout) : Except MarshalError (String × Value) := do
  let memory ← checkedSlot refusal f octets
  let value ← m.decodeField nested owner f memory
  pure (f.name, value)

def readFields (m : Marshaler) (refusal : MarshalError) :
    Nat → StructLayout → List UInt8 → Except MarshalError Record
  | 0, layout, _ => .error (.unknownStruct layout.name)
  | fuel + 1, layout, octets => do
    let fields ← layout.fields.mapM
      (m.readField refusal (readFields m refusal fuel) layout.name octets)
    pure ⟨layout.name, fields⟩

def writeMember (m : Marshaler) (refusal : MarshalError)
    (nested : StructLayout → Record → List UInt8 → String → Except MarshalError (List UInt8))
    (owner : String) (record : Record) (path : String) (octets : List UInt8) (f : FieldLayout) :
    Except MarshalError (List UInt8) := do
  let memory ← checkedSlot refusal f octets
  let part ← m.encodeMember nested owner record path f memory
  checkedOverwrite refusal f octets part

def writeFields (m : Marshaler) (refusal : MarshalError) :
    Nat → StructLayout → Record → List UInt8 → String → Except MarshalError (List UInt8)
  | 0, layout, _, _, _ => .error (.unknownStruct layout.name)
  | fuel + 1, layout, record, octets, path => do
    record.fields.forM fun f =>
      if (layout.field? f.1).isSome then pure () else throw (.unknownField layout.name f.1)
    layout.fields.foldlM
      (m.writeMember refusal (writeFields m refusal fuel) layout.name record path) octets

variable {m : Marshaler} {rank : String → Nat} {l : StructLayout} {name : String}
  {refusal : MarshalError}

theorem decodeField_congr {read read' : StructLayout → List UInt8 → Except MarshalError Record}
    {owner : String} {f : FieldLayout} {memory : List UInt8} (hFits : m.layouts.Fits rank owner f)
    (hMemory : memory.length = f.size)
    (hNested : ∀ inside l', m.layouts.get? inside = some l' → memory.length = l'.size →
      read l' memory = read' l' memory) :
    m.decodeField read owner f memory = m.decodeField read' owner f memory := by
  cases hFits with
  | scalar kind hType => rw [decodeField_scalar hType, decodeField_scalar hType]
  | text width hType => rw [decodeField_text hType, decodeField_text hType]
  | struct inside l' hType hGet hSize =>
    have hSame := hNested inside l' hGet (hMemory.trans hSize)
    simp only [decodeField, hType, LayoutTable.require_eq_ok hGet, bind, Except.bind, hSame]

theorem encodeMember_congr
    {write write' : StructLayout → Record → List UInt8 → String → Except MarshalError (List UInt8)}
    {owner path : String} {r : Record} {f : FieldLayout} {memory : List UInt8}
    (hFits : m.layouts.Fits rank owner f) (hMemory : memory.length = f.size)
    (hNested : ∀ inside l' r path, m.layouts.get? inside = some l' → memory.length = l'.size →
      write l' r memory path = write' l' r memory path) :
    m.encodeMember write owner r path f memory = m.encodeMember write' owner r path f memory := by
  unfold encodeMember
  cases r.get? f.name with
  | none => rfl
  | some v =>
    cases hFits with
    | scalar kind hType => simp only [encodeField, hType]
    | text width hType => simp only [encodeField, hType]
    | struct inside l' hType hGet hSize =>
      have hSame := fun r path => hNested inside l' r path hGet (hMemory.trans hSize)
      simp only [encodeField, hType, LayoutTable.require_eq_ok hGet, bind, Except.bind, hSame]

theorem readFields_eq (hRanked : m.layouts.Ranked rank) (hGet : m.layouts.get? name = some l)
    {octets : List UInt8} (hLength : octets.length = l.size) (fuel : Nat) :
    m.readFields refusal fuel l octets = m.decodeFields fuel l octets := by
  induction fuel generalizing name l octets with
  | zero => rfl
  | succ fuel ih =>
    have hSound := hRanked.sound hGet
    rw [readFields, decodeFields]
    congr 1
    refine mapM_congr fun f hf => ?_
    have hInside : f.offset + f.size ≤ octets.length := hLength ▸ hSound.inside f hf
    have hSlot : checkedSlot refusal f octets = .ok (slot f octets) := if_pos hInside
    have hSame := decodeField_congr (hSound.fits f hf) (length_part hInside)
      fun _ _ hGet' hLength' => ih hGet' hLength'
    rw [readField, hSlot, slot_eq_part, ← hSame]
    rfl

theorem writeFields_eq (hRanked : m.layouts.Ranked rank) (hGet : m.layouts.get? name = some l)
    {octets : List UInt8} (hLength : octets.length = l.size) (fuel : Nat) (r : Record)
    (path : String) :
    m.writeFields refusal fuel l r octets path = m.encodeFields fuel l r octets path := by
  induction fuel generalizing name l octets r path with
  | zero => rfl
  | succ fuel ih =>
    have hSound := hRanked.sound hGet
    rw [writeFields, encodeFields]
    congr 1
    funext
    -- The memory keeps its length from field to field, so that the next slot is inside again.
    refine foldlM_congr_of_invariant (fun octets => octets.length = l.size)
      (fun f hf before hBefore => ?_) hLength
    have hInside : f.offset + f.size ≤ before.length := hBefore ▸ hSound.inside f hf
    have hSlot : checkedSlot refusal f before = .ok (slot f before) := if_pos hInside
    have hMemory : (slot f before).length = f.size := length_part hInside
    have hSame : m.encodeMember (m.writeFields refusal fuel) l.name r path f (slot f before) =
        m.encodeMember (m.encodeFields fuel) l.name r path f (slot f before) :=
      encodeMember_congr (hSound.fits f hf) hMemory fun _ _ r path hGet' hLength' =>
        ih hGet' hLength' r path
    simp only [writeMember, hSlot, hSame, bind, Except.bind]
    cases hPart : m.encodeMember (m.encodeFields fuel) l.name r path f (slot f before) with
    | error e => exact ⟨rfl, fun after hAfter => by cases hAfter⟩
    | ok part =>
      have hSeparate := separate_of_sound (keepsSize_encodeFields hRanked fuel) hSound r path
      have hFills : part.length = f.size := hSeparate.keeps f hf _ _ hMemory hPart
      refine ⟨if_pos hFills, fun after hAfter => ?_⟩
      cases hAfter
      rw [length_overwrite (hFills ▸ hInside), hBefore]

/-- A layout with its fields apart and inside, whose slots are taken inside memory only. -/
structure Bounded (m : Marshaler) (l : StructLayout) : Prop where
  alignment : IsAlignment l.align
  apart : l.fields.Pairwise fun f g => f.offset + f.size ≤ g.offset
  inside : ∀ f ∈ l.fields, f.offset + f.size ≤ l.size
  reads : ∀ refusal fuel octets, octets.length = l.size →
    m.readFields refusal fuel l octets = m.decodeFields fuel l octets
  writes : ∀ refusal fuel r octets path, octets.length = l.size →
    m.writeFields refusal fuel l r octets path = m.encodeFields fuel l r octets path

end Marshaler

namespace LayoutTable

variable {library : LibraryInfo} {structs : List StructDecl} {classes : List ClassDecl} {m : Model}

theorem build_perm (h : Model.new library structs classes = .ok m) {structs' : List StructDecl}
    (hPerm : structs'.Perm structs) :
    ∃ m' table table', Model.new library structs' classes = .ok m' ∧ build m = .ok table ∧
      build m' = .ok table' ∧ ∀ name, table'.get? name = table.get? name := by
  obtain ⟨rfl, hChecks⟩ := Model.new_eq_ok_iff.mp h
  have hCoherent : Coherent structs classes :=
    (Model.checks_iff_coherent (m := { library, structs, classes })).mp hChecks
  have hCoherent' : Coherent structs' classes := hCoherent.perm hPerm
  have hNew' : Model.new library structs' classes =
      .ok { library, structs := structs', classes } :=
    Model.new_eq_ok_iff.mpr ⟨rfl, (Model.checks_iff_coherent
      (m := { library, structs := structs', classes })).mpr hCoherent'⟩
  obtain ⟨table, hBuild, -, hGet⟩ := build_natural (Model.structRules_of_new h)
  obtain ⟨table', hBuild', -, hGet'⟩ := build_natural (Model.structRules_of_new hNew')
  have hFind : Model.findStruct? { library, structs := structs', classes } =
      Model.findStruct? { library, structs, classes } := by
    funext name
    refine Option.ext fun s => ?_
    exact (find?_key_eq_some_iff hCoherent'.structNames).trans
      ((and_congr_left fun _ => hPerm.mem_iff).trans
        (find?_key_eq_some_iff hCoherent.structNames).symm)
  refine ⟨_, table, table', hNew', hBuild, hBuild', fun name => Option.ext fun l => ?_⟩
  rw [hGet', hGet, hFind]
  exact exists_congr fun s => and_congr_left fun _ => hPerm.mem_iff

/-- The layouts of an accepted model exist, whatever the order of its structs, are those of the
recursion on the declarations, and keep reading and writing inside memory. -/
theorem natural_of_new (h : Model.new library structs classes = .ok m) :
    ∃ table, build m = .ok table ∧
      (table.layouts.map (·.name)).Perm (structs.map (·.name)) ∧
      (∀ s ∈ structs, ∃ l, table.get? s.name = some l ∧
        (∀ l', NaturalLayout m.findStruct? s l' ↔ l' = l) ∧ Marshaler.Bounded ⟨m, table⟩ l) ∧
      ∀ structs', structs'.Perm structs → ∃ m' table',
        Model.new library structs' classes = .ok m' ∧ build m' = .ok table' ∧
        ∀ name, table'.get? name = table.get? name := by
  have hRules := Model.structRules_of_new h
  obtain ⟨hSame, -⟩ := Model.new_eq_ok_iff.mp h
  obtain ⟨table, hBuild, hNames, hGet⟩ := build_natural hRules
  obtain ⟨table₁, rank, hBuild₁, hRanked, hCovers⟩ := build_ranked hRules
  cases hBuild.symm.trans hBuild₁
  have hStructs : m.structs = structs := by rw [hSame]
  refine ⟨table, hBuild, hStructs ▸ hNames, fun s hs => ?_, fun structs' hPerm => ?_⟩
  · rw [← hStructs] at hs
    obtain ⟨l, hLayout⟩ := hCovers.complete s hs
    obtain ⟨s', hs', hName, hNatural⟩ := (hGet _ l).mp hLayout
    cases List.inj_on_of_nodup_map hRules.names hs' hs hName
    have hSound := hRanked.sound hLayout
    refine ⟨l, hLayout, fun l' => ⟨fun hOther => hOther.unique hNatural, fun hEq => hEq ▸ hNatural⟩,
      hNatural.isAlignment, hSound.apart, hSound.inside, fun refusal fuel octets hLength => ?_,
      fun refusal fuel r octets path hLength => ?_⟩
    · exact Marshaler.readFields_eq (m := ⟨m, table⟩) hRanked hLayout hLength fuel
    · exact Marshaler.writeFields_eq (m := ⟨m, table⟩) hRanked hLayout hLength fuel r path
  · obtain ⟨m', table₁, table', hNew', hBuild₁, hBuild', hOrder⟩ := build_perm h hPerm
    cases hBuild.symm.trans hBuild₁
    exact ⟨m', table', hNew', hBuild', hOrder⟩

theorem natural_sample :
    ∃ table, build Model.sampleLibrary = .ok table ∧
      (table.layouts.map (·.name)).Perm ["Quote", "Level", "Time"] ∧
      (∀ s ∈ Model.sampleLibrary.structs, ∃ l, table.get? s.name = some l ∧
        (∀ l', NaturalLayout Model.sampleLibrary.findStruct? s l' ↔ l' = l) ∧
        Marshaler.Bounded ⟨Model.sampleLibrary, table⟩ l) ∧
      ∀ structs', structs'.Perm Model.sampleLibrary.structs → ∃ m' table',
        Model.new Model.sampleLibrary.library structs' Model.sampleLibrary.classes = .ok m' ∧
        build m' = .ok table' ∧ ∀ name, table'.get? name = table.get? name :=
  have hNew : Model.new Model.sampleLibrary.library Model.sampleLibrary.structs
      Model.sampleLibrary.classes = .ok Model.sampleLibrary := rfl
  natural_of_new hNew

end LayoutTable

end NativeBinding
