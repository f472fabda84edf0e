import ArchGraph.Proofs.ComparablePaths
import ArchGraph.Proofs.RoutePatterns
import Mathlib.Data.List.Forall2

/-!
The paths in the identifiers of endpoints. A path is read three times, for placeholders, for numbers
and for UUIDs, and each time the whole text is searched. On a path of segments this comes to the
same as looking at each segment on its own (`abstractPath_slashed`):

* a rule that finds whole segments only changes them one by one (`OnSegments.substitute_slashed`),
  and the rules for numbers and for UUIDs are such rules;
* what one reading puts in is not found by the next, and the result can be read back as segments. So
  two paths have one identifier just when their segments agree but for what varies
  (`endpoint_ids_agree_iff`).
-/

namespace ArchGraph.Identifier

open Text Route

/-! ## Segments -/

/-- A name in braces. -/
def IsVariable (s : List Char) : Prop :=
  ∃ name, name ≠ [] ∧ '\x7b' ∉ name ∧ '\x7d' ∉ name ∧ s = '\x7b' :: (name ++ ['\x7d'])

/-- Decimal digits, of whatever script. -/
def IsNumber (s : List Char) : Prop := s ≠ [] ∧ ∀ c ∈ s, isDecimal c = true

def HexGroup (n : Nat) (g : List Char) : Prop := g.length = n ∧ ∀ c ∈ g, isHex c = true

/-- Hexadecimal digits in groups of 8, 4, 4, 4 and 12, with hyphens between them. -/
def UuidShaped (s : List Char) : Prop :=
  ∃ a b c d e, HexGroup 8 a ∧ HexGroup 4 b ∧ HexGroup 4 c ∧ HexGroup 4 d ∧ HexGroup 12 e ∧
    s = a ++ '-' :: (b ++ '-' :: (c ++ '-' :: (d ++ '-' :: e)))

/-- What is different from one request to the next. -/
def Varies (s : List Char) : Prop := IsVariable s ∨ IsNumber s ∨ UuidShaped s

/-- A segment of a path: a variable, or a text without braces on one line. -/
structure IsSegment (s : List Char) : Prop where
  nonempty : s ≠ []
  noSlash : '/' ∉ s
  form : IsVariable s ∨ '\x7b' ∉ s ∧ '\x7d' ∉ s ∧ '\n' ∉ s

instance (s : List Char) : Decidable (IsVariable s) :=
  decidable_of_iff (s.tail.dropLast ≠ [] ∧ '\x7b' ∉ s.tail.dropLast ∧ '\x7d' ∉ s.tail.dropLast ∧
      s = '\x7b' :: (s.tail.dropLast ++ ['\x7d'])) (by
    constructor
    · exact fun h => ⟨_, h⟩
    · rintro ⟨name, hne, hopen, hclose, rfl⟩
      simpa using ⟨hne, hopen, hclose⟩)

instance (s : List Char) : Decidable (IsSegment s) :=
  decidable_of_iff (s ≠ [] ∧ '/' ∉ s ∧ (IsVariable s ∨ '\x7b' ∉ s ∧ '\x7d' ∉ s ∧ '\n' ∉ s))
    ⟨fun h => ⟨h.1, h.2.1, h.2.2⟩, fun h => ⟨h.nonempty, h.noSlash, h.form⟩⟩

instance (s : List Char) : Decidable (IsNumber s) :=
  decidable_of_iff (s ≠ [] ∧ s.all isDecimal = true) (by rw [IsNumber, List.all_eq_true])

theorem HexGroup.noHyphen {n : Nat} {g : List Char} (h : HexGroup n g) : '-' ∉ g := by
  intro hin
  have hhyphen := h.2 '-' hin
  revert hhyphen
  decide

theorem isUuid_iff {s : List Char} : isUuid s = true ↔ UuidShaped s := by
  unfold isUuid
  simp only [Bool.and_eq_true, List.all_eq_true, beq_iff_eq]
  constructor
  · rintro ⟨hhex, hlengths⟩
    have hjoined : s = joinWith ['-'] (splitWhere (· == '-') s) := by
      rw [splitWhere_eq]
      exact (List.intercalate_splitOn '-').symm
    simp only [List.map_eq_cons_iff, List.map_eq_nil_iff] at hlengths
    obtain ⟨a, _, hgroups, ha, b, _, rfl, hb, c, _, rfl, hc, d, _, rfl, hd, e, _, rfl, he, rfl⟩ :=
      hlengths
    rw [hgroups] at hhex hjoined
    simp only [List.forall_mem_cons] at hhex
    obtain ⟨ha', hb', hc', hd', he', _⟩ := hhex
    exact ⟨a, b, c, d, e, ⟨ha, ha'⟩, ⟨hb, hb'⟩, ⟨hc, hc'⟩, ⟨hd, hd'⟩, ⟨he, he'⟩,
      by simpa [joinWith] using hjoined⟩
  · rintro ⟨a, b, c, d, e, ha, hb, hc, hd, he, rfl⟩
    have hsplit : splitWhere (· == '-') (a ++ '-' :: (b ++ '-' :: (c ++ '-' :: (d ++ '-' :: e)))) =
        [a, b, c, d, e] := by
      have hjoined : ['-'].intercalate [a, b, c, d, e] =
          a ++ '-' :: (b ++ '-' :: (c ++ '-' :: (d ++ '-' :: e))) := by simp
      rw [splitWhere_eq, ← hjoined]
      exact List.splitOn_intercalate '-'
        (by simp [ha.noHyphen, hb.noHyphen, hc.noHyphen, hd.noHyphen, he.noHyphen]) (by simp)
    rw [hsplit]
    refine ⟨?_, by simp [ha.1, hb.1, hc.1, hd.1, he.1]⟩
    simp only [List.forall_mem_cons]
    exact ⟨ha.2, hb.2, hc.2, hd.2, he.2, by simp⟩

instance (s : List Char) : Decidable (UuidShaped s) := decidable_of_iff _ isUuid_iff

instance (s : List Char) : Decidable (Varies s) := inferInstanceAs (Decidable (_ ∨ _ ∨ _))

theorem UuidShaped.length_eq {s : List Char} (h : UuidShaped s) : s.length = 36 := by
  obtain ⟨a, b, c, d, e, ha, hb, hc, hd, he, rfl⟩ := h
  simp [ha.1, hb.1, hc.1, hd.1, he.1]

theorem UuidShaped.isHex_or_hyphen {s : List Char} (h : UuidShaped s) :
    ∀ x ∈ s, isHex x = true ∨ x = '-' := by
  obtain ⟨a, b, c, d, e, ha, hb, hc, hd, he, rfl⟩ := h
  intro x hx
  simp only [List.mem_append, List.mem_cons] at hx
  rcases hx with hx | hx | hx | hx | hx | hx | hx | hx | hx
  · exact .inl (ha.2 x hx)
  · exact .inr hx
  · exact .inl (hb.2 x hx)
  · exact .inr hx
  · exact .inl (hc.2 x hx)
  · exact .inr hx
  · exact .inl (hd.2 x hx)
  · exact .inr hx
  · exact .inl (he.2 x hx)

/-- The mark in place of the segments of a kind. -/
def marked (p : List Char → Prop) [DecidablePred p] (s : List Char) : List Char :=
  if p s then variableMark else s

theorem marked_of_pos {p : List Char → Prop} [DecidablePred p] {s : List Char} (h : p s) :
    marked p s = variableMark := if_pos h

theorem marked_of_neg {p : List Char → Prop} [DecidablePred p] {s : List Char} (h : ¬ p s) :
    marked p s = s := if_neg h

theorem isVariable_variableMark : IsVariable variableMark :=
  ⟨['*'], by decide, by decide, by decide, rfl⟩

theorem not_isNumber_variableMark : ¬ IsNumber variableMark := by decide

theorem not_uuidShaped_variableMark : ¬ UuidShaped variableMark := by
  intro h
  have hlength := h.length_eq
  revert hlength
  decide

/-- Three readings of a segment come to one: what one of them puts in is not found by the next. -/
theorem marked_marked_marked (s : List Char) :
    marked UuidShaped (marked IsNumber (marked IsVariable s)) = marked Varies s := by
  by_cases hvariable : IsVariable s
  · rw [marked_of_pos hvariable, marked_of_neg not_isNumber_variableMark,
      marked_of_neg not_uuidShaped_variableMark, marked_of_pos (.inl hvariable)]
  · rw [marked_of_neg hvariable]
    by_cases hnumber : IsNumber s
    · rw [marked_of_pos hnumber, marked_of_neg not_uuidShaped_variableMark,
        marked_of_pos (.inr (.inl hnumber))]
    · rw [marked_of_neg hnumber]
      by_cases hshape : UuidShaped s
      · rw [marked_of_pos hshape, marked_of_pos (.inr (.inr hshape))]
      · rw [marked_of_neg hshape, marked_of_neg]
        rintro (h | h | h)
        · exact hvariable h
        · exact hnumber h
        · exact hshape h

/-- The mark cannot be taken for a segment that is kept, since it is a variable itself. -/
theorem marked_varies_eq_iff {s t : List Char} :
    marked Varies s = marked Varies t ↔ s = t ∨ Varies s ∧ Varies t := by
  have hmark : Varies variableMark := .inl isVariable_variableMark
  constructor
  · intro h
    by_cases hs : Varies s
    · by_cases ht : Varies t
      · exact .inr ⟨hs, ht⟩
      · rw [marked_of_pos hs, marked_of_neg ht] at h
        exact absurd (h ▸ hmark) ht
    · by_cases ht : Varies t
      · rw [marked_of_neg hs, marked_of_pos ht] at h
        exact absurd (h ▸ hmark) hs
      · rw [marked_of_neg hs, marked_of_neg ht] at h
        exact .inl h
  · rintro (rfl | ⟨hs, ht⟩)
    · rfl
    · rw [marked_of_pos hs, marked_of_pos ht]

/-! ## Rules that find segments -/

/-- What may stand behind a segment. -/
def Behind (rest : List Char) : Prop := rest = [] ∨ ∃ more, rest = '/' :: more

theorem behind_slashed (parts : List (List Char)) : Behind (slashed parts) := by
  cases parts with
  | nil => exact .inl rfl
  | cons s rest => exact .inr ⟨_, slashed_cons s rest⟩

theorem Behind.ends {rest : List Char} (h : Behind rest) : endsSegment rest = true := by
  rcases h with rfl | ⟨more, rfl⟩
  · rfl
  · simp [endsSegment]

/-- What the rules for segments are given: the mark, and texts on one line. -/
structure OneLine (s : List Char) : Prop where
  nonempty : s ≠ []
  noSlash : '/' ∉ s
  noBreak : '\n' ∉ s

theorem oneLine_variableMark : OneLine variableMark := ⟨by decide, by decide, by decide⟩

theorem OneLine.marked {s : List Char} (h : OneLine s) (p : List Char → Prop) [DecidablePred p] :
    OneLine (marked p s) := by
  by_cases hp : p s
  · rw [marked_of_pos hp]
    exact oneLine_variableMark
  · rwa [marked_of_neg hp]

/-- Once the variables are marked, no segment has a line break. -/
theorem IsSegment.oneLine {s : List Char} (h : IsSegment s) :
    OneLine (Identifier.marked IsVariable s) := by
  by_cases hvariable : IsVariable s
  · rw [marked_of_pos hvariable]
    exact oneLine_variableMark
  · rw [marked_of_neg hvariable]
    exact ⟨h.nonempty, h.noSlash, (h.form.resolve_left hvariable).2.2⟩

theorem IsSegment.oneLine_varies {s : List Char} (h : IsSegment s) :
    OneLine (Identifier.marked Varies s) := by
  rw [← marked_marked_marked]
  exact (h.oneLine.marked IsNumber).marked UuidShaped

/-- The rule finds a segment with its slash if `p` holds of it, and nothing else. -/
structure OnSegments (rule : Rule (List Char)) (p : List Char → Prop) [DecidablePred p] : Prop where
  whole : ∀ s rest, OneLine s → Behind rest → rule ('/' :: (s ++ rest)) =
    if p s then some ('/' :: variableMark, s.length + 1) else none
  inside : ∀ c cs, c ≠ '/' → rule (c :: cs) = none

theorem OnSegments.substitute_slashed {rule : Rule (List Char)} {p : List Char → Prop}
    [DecidablePred p] (h : OnSegments rule p) {parts : List (List Char)}
    (hparts : ∀ s ∈ parts, OneLine s) :
    substitute rule (slashed parts) = slashed (parts.map (marked p)) := by
  induction parts with
  | nil => rfl
  | cons s rest ih =>
      obtain ⟨hs, hrest⟩ := List.forall_mem_cons.mp hparts
      have hwhole := h.whole s _ hs (behind_slashed rest)
      rw [List.map_cons, slashed_cons, slashed_cons, ← ih hrest]
      by_cases hp : p s
      · rw [if_pos hp] at hwhole
        rw [marked_of_pos hp, substitute_cons_of_some hwhole, Nat.add_sub_cancel, List.drop_left,
          List.cons_append]
      · rw [if_neg hp] at hwhole
        rw [marked_of_neg hp, substitute_cons_of_none hwhole, substitute_append_of_none]
        intro c hc cs
        exact h.inside c cs (fun he => hs.noSlash (he ▸ hc))

/-- A segment that does not end where the rule stops is not found. -/
theorem not_endsSegment {c : Char} {cs : List Char} (hslash : c ≠ '/') (hline : c ≠ '\n') :
    endsSegment (c :: cs) = false := by
  simp [endsSegment, hslash, hline]

theorem numericSegment_onSegments : OnSegments numericSegment IsNumber where
  whole := by
    intro s rest hs hrest
    have hbehind : rest.takeWhile isDecimal = [] := by
      rcases hrest with rfl | ⟨more, rfl⟩
      · rfl
      · exact List.takeWhile_cons_of_neg (by decide)
    by_cases hnumber : IsNumber s
    · have hdigits : (s ++ rest).takeWhile isDecimal = s := by
        rw [List.takeWhile_append_of_pos hnumber.2, hbehind, List.append_nil]
      simp [numericSegment, hdigits, hs.nonempty, hrest.ends, hnumber]
    · have hsome : ¬ ∀ c ∈ s, isDecimal c = true := fun hall => hnumber ⟨hs.nonempty, hall⟩
      -- The digits end inside the segment, at a character that is no slash.
      obtain ⟨digits, c, more, hsplit, hdigits, hc⟩ := exists_first_failure hsome
      have hin : c ∈ s := hsplit ▸ List.mem_append_right _ List.mem_cons_self
      have htext : s ++ rest = digits ++ c :: (more ++ rest) := by rw [hsplit]; simp
      have hends : endsSegment ((s ++ rest).drop digits.length) = false := by
        rw [htext, List.drop_left]
        exact not_endsSegment (fun he => hs.noSlash (he ▸ hin)) (fun he => hs.noBreak (he ▸ hin))
      have hwhile : (s ++ rest).takeWhile isDecimal = digits := by
        rw [htext, takeWhile_append_cons hdigits hc]
      simp [numericSegment, hwhile, hends, hnumber]
  inside := by
    intro c cs hc
    unfold numericSegment
    split
    · rename_i heq
      exact absurd (List.cons.inj heq).1 hc
    · rfl

/-- Where 36 characters behind a slash are a UUID and the segment ends there, it is the segment. -/
theorem uuidShaped_of_take {s rest : List Char} (hs : OneLine s) (hrest : Behind rest)
    (hfound : UuidShaped ((s ++ rest).take 36))
    (hends : endsSegment ((s ++ rest).drop 36) = true) : UuidShaped s := by
  rcases Nat.lt_trichotomy s.length 36 with hshort | hsame | hlong
  · -- The UUID would reach beyond the segment, but it has no slash.
    exfalso
    have hlength := hfound.length_eq
    rw [List.take_append, List.take_of_length_le (by omega)] at hfound hlength
    rcases hrest with rfl | ⟨more, rfl⟩
    · simp at hlength
      omega
    · have hin : '/' ∈ s ++ ('/' :: more).take (36 - s.length) := by
        rw [List.take_cons (by omega)]
        simp
      have hchar := hfound.isHex_or_hyphen '/' hin
      revert hchar
      decide
  · rwa [← hsame, List.take_left] at hfound
  · -- The segment goes on behind the UUID.
    exfalso
    obtain ⟨c, more, hmore⟩ : ∃ c more, s.drop 36 = c :: more := by
      apply List.exists_cons_of_ne_nil
      rw [Ne, List.drop_eq_nil_iff]
      omega
    have hc : c ∈ s := List.mem_of_mem_drop (hmore ▸ List.mem_cons_self)
    rw [List.drop_append_of_le_length (by omega), hmore, List.cons_append,
      not_endsSegment (fun he => hs.noSlash (he ▸ hc)) (fun he => hs.noBreak (he ▸ hc))] at hends
    cases hends

theorem uuidSegment_onSegments : OnSegments uuidSegment UuidShaped where
  whole := by
    intro s rest hs hrest
    by_cases hshape : UuidShaped s
    · have htake : (s ++ rest).take 36 = s := by rw [← hshape.length_eq, List.take_left]
      have hdrop : (s ++ rest).drop 36 = rest := by rw [← hshape.length_eq, List.drop_left]
      simp [uuidSegment, htake, hdrop, isUuid_iff.mpr hshape, hrest.ends, hshape, hshape.length_eq]
    · have hmissed :
          (isUuid ((s ++ rest).take 36) && endsSegment ((s ++ rest).drop 36)) = false := by
        rw [Bool.eq_false_iff, Ne, Bool.and_eq_true, isUuid_iff]
        exact fun hfound => hshape (uuidShaped_of_take hs hrest hfound.1 hfound.2)
      simp [uuidSegment, hmissed, hshape]
  inside := by
    intro c cs hc
    unfold uuidSegment
    split
    · rename_i heq
      exact absurd (List.cons.inj heq).1 hc
    · rfl

/-! ## Paths -/

/-- Placeholders are found where segments are variables. -/
theorem substitute_placeholder_slashed {parts : List (List Char)}
    (hparts : ∀ s ∈ parts, IsSegment s) :
    substitute (placeholder variableMark) (slashed parts) =
      slashed (parts.map (marked IsVariable)) := by
  induction parts with
  | nil => rfl
  | cons s rest ih =>
      obtain ⟨hs, hrest⟩ := List.forall_mem_cons.mp hparts
      rw [List.map_cons, slashed_cons, slashed_cons, ← ih hrest,
        substitute_cons_of_none (placeholder_eq_none (by decide) _)]
      by_cases hvariable : IsVariable s
      · rw [marked_of_pos hvariable]
        obtain ⟨name, hne, _, hclose, rfl⟩ := hvariable
        have hfound := @placeholder_eq _ variableMark name hne hclose (slashed rest)
        rw [List.cons_append, List.append_assoc, List.singleton_append,
          substitute_cons_of_some hfound]
        simp
      · rw [marked_of_neg hvariable, substitute_append_of_none]
        intro c hc cs
        have hopen := (hs.form.resolve_left hvariable).1
        exact placeholder_eq_none (fun he => hopen (he ▸ hc)) cs

theorem segments_marked {parts : List (List Char)} (hparts : ∀ s ∈ parts, IsSegment s) :
    ∀ t ∈ parts.map (marked Varies), t ≠ [] ∧ '/' ∉ t := by
  refine List.forall_mem_map.mpr fun s hs => ?_
  have hline := (hparts s hs).oneLine_varies
  exact ⟨hline.nonempty, hline.noSlash⟩

theorem abstractPath_slashed {parts : List (List Char)} (hparts : ∀ s ∈ parts, IsSegment s) :
    abstractPath (slashed parts) = slashed (parts.map (marked Varies)) := by
  have hvariables : ∀ t ∈ parts.map (marked IsVariable), OneLine t :=
    List.forall_mem_map.mpr fun s hs => (hparts s hs).oneLine
  have hnumbers : ∀ t ∈ (parts.map (marked IsVariable)).map (marked IsNumber), OneLine t :=
    List.forall_mem_map.mpr fun s hs => (hvariables s hs).marked IsNumber
  have hread : ((parts.map (marked IsVariable)).map (marked IsNumber)).map (marked UuidShaped) =
      parts.map (marked Varies) := by
    rw [List.map_map, List.map_map]
    exact List.map_congr_left fun s _ => marked_marked_marked s
  unfold abstractPath
  rw [substitute_placeholder_slashed hparts,
    numericSegment_onSegments.substitute_slashed hvariables,
    uuidSegment_onSegments.substitute_slashed hnumbers, hread, dropFinalSlash]
  simp [getLast?_slashed_ne (segments_marked hparts)]

/-- The path of an endpoint with these segments. -/
def pathOf (parts : List (List Char)) : String := String.ofList (ofSegments parts)

theorem endpointPath_pathOf {parts : List (List Char)} (hne : parts ≠ [])
    (hparts : ∀ s ∈ parts, IsSegment s) :
    endpointPath (pathOf parts) = pathOf (parts.map (marked Varies)) := by
  have hmap : parts.map (marked Varies) ≠ [] := by simpa using hne
  unfold endpointPath pathOf onChars
  rw [String.toList_ofList, ofSegments_eq_slashed hne, ofSegments_eq_slashed hmap,
    abstractPath_slashed hparts]

/-- **An identifier abstracts just what varies.** The path in it has the mark in place of every
variable, number and UUID, and every other segment as it is. So the identifiers of two endpoints
with one verb are the same just when their paths agree segment by segment, but for segments that
vary in both. -/
theorem endpoint_ids_agree_iff (parts others : List (List Char)) (hne : parts ≠ [])
    (hne' : others ≠ []) (hparts : ∀ s ∈ parts, IsSegment s) (hothers : ∀ s ∈ others, IsSegment s) :
    endpointPath (pathOf parts) = pathOf (parts.map (marked Varies)) ∧
    (endpointPath (pathOf parts) = endpointPath (pathOf others) ↔
      List.Forall₂ (fun s t => s = t ∨ Varies s ∧ Varies t) parts others) ∧
    ∀ verb, endpoint verb (pathOf parts) = endpoint verb (pathOf others) ↔
      List.Forall₂ (fun s t => s = t ∨ Varies s ∧ Varies t) parts others := by
  have hpath : endpointPath (pathOf parts) = endpointPath (pathOf others) ↔
      List.Forall₂ (fun s t => s = t ∨ Varies s ∧ Varies t) parts others := by
    have hmap : pathOf (parts.map (marked Varies)) = pathOf (others.map (marked Varies)) ↔
        parts.map (marked Varies) = others.map (marked Varies) := by
      constructor
      · intro h
        have hread := congrArg segments (String.ofList_injective h)
        rwa [segments_ofSegments (segments_marked hparts),
          segments_ofSegments (segments_marked hothers)] at hread
      · intro h
        rw [h]
    rw [endpointPath_pathOf hne hparts, endpointPath_pathOf hne' hothers, hmap,
      ← List.forall₂_eq_eq_eq, List.forall₂_map_left_iff, List.forall₂_map_right_iff]
    simp only [marked_varies_eq_iff]
  refine ⟨endpointPath_pathOf hne hparts, hpath, fun verb => ?_⟩
  unfold endpoint
  rw [String.append_right_inj, hpath]

/-- Segments of every kind, and one that only begins like a number. -/
def orderLine (name number uuid : String) : List (List Char) :=
  ["orders".toList, ("\x7b" ++ name ++ "\x7d").toList, number.toList, uuid.toList, "42a".toList]

/-- Another name, number and UUID change nothing; another text does. -/
theorem orderLine_id :
    endpointPath (pathOf (orderLine "id" "42" "0a1B2c3D-0000-1111-2222-0123456789ab")) =
      "/orders/\x7b*\x7d/\x7b*\x7d/\x7b*\x7d/42a" ∧
    endpoint (some "get") (pathOf (orderLine "id" "42" "0a1B2c3D-0000-1111-2222-0123456789ab")) =
      endpoint (some "get")
        (pathOf (orderLine "order" "7" "ffffffff-ffff-ffff-ffff-ffffffffffff")) ∧
    endpoint none (pathOf (orderLine "id" "42" "0a1B2c3D-0000-1111-2222-0123456789ab")) ≠
      endpoint none (pathOf (orderLine "id" "4-2" "0a1B2c3D-0000-1111-2222-0123456789ab")) := by
  have hline : ∀ s ∈ orderLine "id" "42" "0a1B2c3D-0000-1111-2222-0123456789ab", IsSegment s := by
    decide
  have hrenamed : ∀ s ∈ orderLine "order" "7" "ffffffff-ffff-ffff-ffff-ffffffffffff",
      IsSegment s := by
    decide
  have hother : ∀ s ∈ orderLine "id" "4-2" "0a1B2c3D-0000-1111-2222-0123456789ab", IsSegment s := by
    decide
  obtain ⟨hpath, -, hsame⟩ :=
    endpoint_ids_agree_iff _ _ (by decide) (by decide) hline hrenamed
  obtain ⟨-, -, hdiffer⟩ := endpoint_ids_agree_iff _ _ (by decide) (by decide) hline hother
  refine ⟨hpath.trans (by decide), (hsame _).mpr ?_, fun h => ?_⟩
  · refine .cons (.inl (by decide)) (.cons (.inr (by decide)) (.cons (.inr (by decide))
      (.cons (.inr (by decide)) (.cons (.inl (by decide)) .nil))))
  · have hagree := (hdiffer none).mp h
    revert hagree
    decide

end ArchGraph.Identifier
