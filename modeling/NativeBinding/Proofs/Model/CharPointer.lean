import Mathlib.Data.List.Chain
import NativeBinding.Proofs.Model.Expansion
import NativeBinding.Proofs.Success

/-! # Types that stand for text

A type stands for the type that its typedefs end at, and the resolver finds exactly this type. It
takes a single pointer to `char` for text that ends at a NUL, and a single reference to `char` too;
every other indirection to `char` is unsupported, up to the one where the count starts again.
-/

set_option autoImplicit false

namespace NativeBinding.Resolver

open Header

variable {r : Resolver} {seen : List String} {type target t : TypeSpelling} {n : Nat}
  {links : List TypeSpelling}

/-- A type that no typedef names, put together from all types on the way to it. -/
structure StandsFor (r : Resolver) (type t : TypeSpelling) : Prop where
  final : r.typedef? t.base = none
  chain : ∃ links, (type :: links).IsChain r.Leads ∧ Combines (type :: links) t

/-- The last of some types is named by no typedef. -/
def Ends (r : Resolver) (chain : List TypeSpelling) : Prop :=
  ∀ name, (chain.map (·.base)).getLast? = some name → r.typedef? name = none

theorem Ends.tail (h : r.Ends (type :: target :: links)) : r.Ends (target :: links) := by
  intro name hLast
  apply h name
  rw [List.map_cons, List.map_cons, List.getLast?_cons_cons]
  rwa [List.map_cons] at hLast

theorem not_leads_of_ends (h : r.Ends [type]) : ¬ r.Leads type target := by
  rintro ⟨spelling, hTypedef, -⟩
  cases (h type.base rfl).symm.trans hTypedef

section Ends

variable {type' : TypeSpelling} {links' : List TypeSpelling}

theorem isPrefix_of_ends (hBase : type.base = type'.base) (hChain : (type :: links).IsChain r.Leads)
    (hEnds : r.Ends (type :: links)) (hChain' : (type' :: links').IsChain r.Leads) :
    links' <+: links := by
  induction links generalizing type type' links' with
  | nil =>
    cases links' with
    | nil => exact List.prefix_refl []
    | cons link' links' =>
      have hNone : r.Ends [type'] := by
        intro name hLast
        apply hEnds name
        rwa [List.map_singleton, hBase, ← List.map_singleton]
      exact absurd (List.isChain_cons_cons.mp hChain').1 (not_leads_of_ends hNone)
  | cons link links ih =>
    rw [List.isChain_cons_cons] at hChain
    obtain ⟨⟨spelling, hTypedef, hParse⟩, hRest⟩ := hChain
    cases links' with
    | nil => exact List.nil_prefix
    | cons link' links' =>
      rw [List.isChain_cons_cons] at hChain'
      have hLeads : r.Leads type' link := ⟨spelling, hBase ▸ hTypedef, hParse⟩
      cases hLeads.eq hChain'.1
      rw [List.cons_prefix_cons]
      exact ⟨rfl, ih rfl hRest hEnds.tail hChain'.2⟩

theorem eq_of_ends (hChain : (type :: links).IsChain r.Leads) (hEnds : r.Ends (type :: links))
    (hChain' : (type :: links').IsChain r.Leads) (hEnds' : r.Ends (type :: links')) :
    links = links' := by
  have hLeft := isPrefix_of_ends rfl hChain hEnds hChain'
  have hRight := isPrefix_of_ends rfl hChain' hEnds' hChain
  exact hRight.eq_of_length (Nat.le_antisymm hRight.length_le hLeft.length_le)

theorem nodup_of_ends (hChain : (type :: links).IsChain r.Leads) (hEnds : r.Ends (type :: links)) :
    ((type :: links).map (·.base)).Nodup := by
  induction links generalizing type with
  | nil => exact List.nodup_singleton _
  | cons link links ih =>
    have hTail := (List.isChain_cons_cons.mp hChain).2
    refine List.nodup_cons.mpr ⟨?_, ih hTail hEnds.tail⟩
    intro hMem
    obtain ⟨other, hOther, hBase⟩ := List.mem_map.mp hMem
    obtain ⟨before, after, hSplit⟩ := List.append_of_mem hOther
    have hWhole : type :: link :: links = (type :: before) ++ other :: after := by
      rw [hSplit]
      rfl
    have hOtherChain : (other :: after).IsChain r.Leads := (hWhole ▸ hChain).right_of_append
    have hOtherEnds : r.Ends (other :: after) := by
      intro name hLast
      apply hEnds name
      rw [hWhole, List.map_append, List.getLast?_append, hLast]
      rfl
    -- From the name met again the way goes on as from the first time, so it would be longer.
    have hLong := (isPrefix_of_ends hBase hOtherChain hOtherEnds hChain).length_le
    rw [hSplit, List.length_append, List.length_cons] at hLong
    omega

end Ends

theorem Combines.length_le (h : Combines links t) :
    (links.filterMap (·.arrayLength)).length ≤ 1 := by
  rw [h.arrayLength]
  cases t.arrayLength <;> simp

theorem Combines.eq {t' : TypeSpelling} (h : Combines links t) (h' : Combines links t') :
    t = t' := by
  have hBase := Option.some.inj (h.base.symm.trans h'.base)
  have hConst : t.isConst = t'.isConst := Bool.eq_iff_iff.mpr (h.isConst.trans h'.isConst.symm)
  have hReference : t.isReference = t'.isReference :=
    Bool.eq_iff_iff.mpr (h.isReference.trans h'.isReference.symm)
  have hDepth := UInt8.toNat_inj.mp (h.pointerDepth.trans h'.pointerDepth.symm)
  have hLength : t.arrayLength = t'.arrayLength := by
    have hLists := h.arrayLength.symm.trans h'.arrayLength
    cases hFirst : t.arrayLength <;> cases hSecond : t'.arrayLength <;>
      simp_all
  cases t
  cases t'
  simp_all

theorem not_fails_of_ends {links' : List TypeSpelling} (hChain : (type :: links).IsChain r.Leads)
    (hEnds : r.Ends (type :: links))
    (hExtents : ((type :: links).filterMap (·.arrayLength)).length ≤ 1)
    (hChain' : (type :: links').IsChain r.Leads) : ¬ r.Fails [] (type :: links') := by
  have hStart : type :: links' <+: type :: links :=
    List.cons_prefix_cons.mpr ⟨rfl, isPrefix_of_ends rfl hChain hEnds hChain'⟩
  rintro (hRepeats | ⟨name, spelling, e, hLast, hTypedef, hParse⟩ | hArrays)
  · exact hRepeats ((nodup_of_ends hChain hEnds).sublist (hStart.sublist.map _))
  · obtain ⟨rest, hRest⟩ := hStart
    cases rest with
    | nil =>
      rw [List.append_nil] at hRest
      rw [hRest] at hLast
      cases (hEnds name hLast).symm.trans hTypedef
    | cons next rest =>
      -- The spelling that cannot be read would lead on to the next type.
      rw [List.getLast?_map, Option.map_eq_some_iff] at hLast
      obtain ⟨last, hLast, rfl⟩ := hLast
      rw [← hRest, List.isChain_append] at hChain
      obtain ⟨spelling', hTypedef', hParse'⟩ := hChain.2.2 last hLast next rfl
      cases hTypedef.symm.trans hTypedef'
      cases hParse.symm.trans hParse'
  · have hShort := (hStart.sublist.filterMap (·.arrayLength)).length_le
    omega

/-- Typedefs are followed exactly to the type that they stand for. -/
theorem expand_eq_ok_iff : r.expand type = .ok t ↔ r.StandsFor type t := by
  obtain ⟨n, -, hExpands⟩ : ∃ n, ([] : List String).length + n ≤ r.typedefs.length ∧
      r.Expands [] type n (r.expand type) :=
    exists_expands List.nodup_nil (List.forall_mem_nil _) (by simp)
  have hEnds {t : TypeSpelling} {links : List TypeSpelling} (hFinal : r.typedef? t.base = none)
      (hCombines : Combines (type :: links) t) : r.Ends (type :: links) := by
    intro name hLast
    cases hCombines.base.symm.trans hLast
    exact hFinal
  constructor
  · intro hOk
    rw [hOk] at hExpands
    obtain ⟨hNone, links, -, hChain, hCombines⟩ := hExpands.exists_chain
    exact ⟨hNone, links, hChain, hCombines⟩
  · rintro ⟨hFinal, links, hChain, hCombines⟩
    cases hResult : r.expand type with
    | ok t' =>
      rw [hResult] at hExpands
      obtain ⟨hFinal', links', -, hChain', hCombines'⟩ := hExpands.exists_chain
      cases eq_of_ends hChain (hEnds hFinal hCombines) hChain' (hEnds hFinal' hCombines')
      rw [hCombines.eq hCombines']
    | error e =>
      rw [hResult] at hExpands
      obtain ⟨links', hChain', hFails⟩ := hExpands.exists_fails
      exact absurd hFails
        (not_fails_of_ends hChain (hEnds hFinal hCombines) hCombines.length_le hChain')

section Char

/-- A pointer or a reference. -/
def IsIndirect (t : TypeSpelling) : Prop :=
  0 < t.pointerDepth ∨ t.isReference = true

/-- One star and no reference, or a reference and no star; and no array. -/
def IsSingle (t : TypeSpelling) : Prop :=
  t.arrayLength = none ∧ (t.pointerDepth = 1 ∧ t.isReference = false ∨
    t.pointerDepth = 0 ∧ t.isReference = true)

/-- As many stars as can be counted, and a reference. -/
def Wraps (t : TypeSpelling) : Prop :=
  t.pointerDepth = 255 ∧ t.isReference = true

variable {unsupported : TypeRef} {site : Site}

theorem ofSpelling?_eq_char_iff {spelling : String} :
    ScalarKind.ofSpelling? spelling = some .char ↔ spelling = "char" := by
  constructor
  · intro h
    unfold ScalarKind.ofSpelling? at h
    split at h <;> first | rfl | cases h
  · rintro rfl
    rfl

theorem isSingle_iff : IsSingle t ↔ t.arrayLength = none ∧ indirection t = 1 := by
  unfold IsSingle indirection
  cases t.isReference <;> simp

theorem indirection_eq_zero_iff :
    indirection t = 0 ↔ t.pointerDepth = 0 ∧ t.isReference = false ∨ Wraps t := by
  unfold indirection Wraps
  cases t.isReference with
  | false => simp
  | true =>
    have hWraps : t.pointerDepth + 1 = 0 ↔ t.pointerDepth = 255 := by grind
    simpa using hWraps

theorem meaning_eq_cString_iff (hUnsupported : unsupported ≠ .cString) :
    r.meaning unsupported t = .cString ↔ t.base = "char" ∧ IsSingle t := by
  rw [isSingle_iff, ← ofSpelling?_eq_char_iff, meaning]
  cases t.arrayLength with
  | some n =>
    dsimp only
    split_ifs <;> simp [hUnsupported]
  | none =>
    dsimp only
    split_ifs with hNone
    · simp [hNone]
    · simp [hNone]
    · cases ScalarKind.ofSpelling? t.base <;> simp [hNone, hUnsupported]
    all_goals simp [*]

theorem meaning_of_indirect (hIndirect : IsIndirect t) (hSingle : ¬ IsSingle t)
    (hWraps : ¬ Wraps t) : r.meaning unsupported t = unsupported := by
  have hSome : indirection t ≠ 0 := by
    rw [Ne, indirection_eq_zero_iff]
    rintro (⟨hDepth, hReference⟩ | hHere)
    · rcases hIndirect with hStars | hRef
      · exact absurd hDepth (UInt8.pos_iff_ne_zero.mp hStars)
      · cases hReference.symm.trans hRef
    · exact hWraps hHere
  rw [isSingle_iff] at hSingle
  rw [meaning]
  cases hLength : t.arrayLength with
  | some n => simp [hSome]
  | none =>
    have hMore : indirection t ≠ 1 := fun hOne => hSingle ⟨hLength, hOne⟩
    simp [hSome, hMore]

theorem meaning_of_wraps (h : Wraps t) : r.meaning unsupported t =
    r.meaning unsupported { t with pointerDepth := 0, isReference := false } := by
  have hNone : indirection t = 0 := indirection_eq_zero_iff.mpr (.inr h)
  have hBare : indirection { t with pointerDepth := 0, isReference := false } = 0 := rfl
  simp only [meaning, hNone, hBare]

theorem resolve_eq_ok_iff {ref : TypeRef} : r.resolve type site = .ok ref ↔
    ∃ t, r.StandsFor type t ∧ r.knows t.base = true ∧
      r.meaning (.unsupported type.render) t = ref := by
  simp only [resolve, bind_eq_ok_iff, expand_eq_ok_iff]
  refine exists_congr fun t => and_congr_right fun _ => ?_
  cases r.knows t.base with
  | true => simp [pure, Except.pure, eq_comm]
  | false => simp [throw, throwThe, MonadExceptOf.throw, bind, Except.bind]

/-- Through any typedefs, a type is read as text that ends at a NUL exactly if it stands for a
single pointer to `char`, or a single reference to it. No other indirection to `char` is supported,
except that a reference on top of all the stars that can be counted makes none of them. -/
theorem resolve_char (r : Resolver) (type : TypeSpelling) (site : Site) :
    (r.resolve type site = .ok .cString ↔
      ∃ t, r.StandsFor type t ∧ t.base = "char" ∧ IsSingle t) ∧
    ((∃ t, r.StandsFor type t ∧ t.base = "char" ∧ IsIndirect t ∧ ¬ IsSingle t ∧ ¬ Wraps t) →
      r.resolve type site = .ok (.unsupported type.render)) ∧
    ∀ t, r.StandsFor type t → t.base = "char" → Wraps t → r.resolve type site =
      .ok (r.meaning (.unsupported type.render)
        { t with pointerDepth := 0, isReference := false }) := by
  have hKnown {t : TypeSpelling} (hBase : t.base = "char") : r.knows t.base = true := by
    rw [hBase]
    rfl
  refine ⟨?_, ?_, ?_⟩
  · rw [resolve_eq_ok_iff]
    refine exists_congr fun t => and_congr_right fun _ => ?_
    rw [meaning_eq_cString_iff (by simp)]
    exact and_iff_right_of_imp fun h => hKnown h.1
  · rintro ⟨t, hStands, hBase, hIndirect, hSingle, hWraps⟩
    exact resolve_eq_ok_iff.mpr
      ⟨t, hStands, hKnown hBase, meaning_of_indirect hIndirect hSingle hWraps⟩
  · intro t hStands hBase hWraps
    exact resolve_eq_ok_iff.mpr ⟨t, hStands, hKnown hBase, meaning_of_wraps hWraps⟩

def texts : Resolver where
  typedefs := [("Letter", "const char"), ("Text", "Letter*"), ("Slot", "Text&")]

theorem resolve_char_sample :
    texts.resolve { base := "Text" } (.method "Log" "Line") = .ok .cString ∧
      texts.resolve { base := "Slot" } (.method "Log" "Next") = .ok (.unsupported "Slot") := by
  have hText : texts.expand { base := "Text" } =
      .ok { base := "char", isConst := true, pointerDepth := 1 } := by decide +kernel
  have hSlot : texts.expand { base := "Slot" } =
      .ok { base := "char", isConst := true, pointerDepth := 1, isReference := true } := by
    decide +kernel
  constructor
  · exact (resolve_char _ _ _).1.mpr ⟨_, expand_eq_ok_iff.mp hText, rfl, rfl, .inl ⟨rfl, rfl⟩⟩
  · refine (resolve_char _ _ _).2.1 ⟨_, expand_eq_ok_iff.mp hSlot, rfl, .inr rfl, ?_, ?_⟩
    · rintro ⟨-, ⟨-, hReference⟩ | ⟨hDepth, -⟩⟩
      · cases hReference
      · cases hDepth
    · rintro ⟨hDepth, -⟩
      cases hDepth

/-- A reference to one `char` is read as text, although it is no pointer. -/
theorem resolve_char_reference :
    Resolver.resolve {} { base := "char", isReference := true } (.param "Log" "Put" "c") =
        .ok .cString ∧
      ∀ t, Resolver.StandsFor {} { base := "char", isReference := true } t →
        t.pointerDepth = 0 ∧ t.isReference = true := by
  constructor
  · decide +kernel
  · intro t hStands
    have hExpanded : Resolver.expand {} { base := "char", isReference := true } = .ok t :=
      expand_eq_ok_iff.mpr hStands
    cases hExpanded
    exact ⟨rfl, rfl⟩

end Char

end NativeBinding.Resolver
