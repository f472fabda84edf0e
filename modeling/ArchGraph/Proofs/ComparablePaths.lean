import ArchGraph.Proofs.ExactMatch
import ArchGraph.Proofs.Scanning
import ArchGraph.Proofs.TypeNames

/-!
The form of comparable paths. Whatever an address looks like, its comparable path is a list of
segments, each behind a slash (`path_eq_slashed`): the segments of what remains of the address
without its host, its query and its dynamic parts. Everything else about the form of a path is read
off from there.

A path that is made comparable once more stays as it is, as long as the address has no blanks and
taking the dynamic parts out of it brings no further one together (`path_tidy_and_stable`).
-/

namespace ArchGraph

namespace Text

/-- The pieces of a text stand in it, the first one at its beginning. -/
theorem pieces_within (p : Char → Bool) (cs : List Char) : ∃ first rest,
    splitWhere p cs = first :: rest ∧ first <+: cs ∧ ∀ piece ∈ rest, piece <:+: cs := by
  induction cs with
  | nil => exact ⟨[], [], rfl, List.prefix_rfl, by simp⟩
  | cons c cs ih =>
      obtain ⟨first, rest, hpieces, hfirst, hrest⟩ := ih
      by_cases hc : p c = true
      · refine ⟨[], first :: rest, by simp [splitWhere, hc, hpieces], List.nil_prefix, ?_⟩
        intro piece hpiece
        apply List.infix_cons
        rcases List.mem_cons.mp hpiece with rfl | hpiece
        · exact hfirst.isInfix
        · exact hrest piece hpiece
      · refine ⟨c :: first, rest, by simp [splitWhere, hc, hpieces, extendHead], ?_, ?_⟩
        · exact List.cons_prefix_cons.mpr ⟨rfl, hfirst⟩
        · intro piece hpiece
          exact List.infix_cons (hrest piece hpiece)

end Text

namespace Route

/-! ## Segments behind slashes -/

/-- The segments, each behind a slash. -/
def slashed (parts : List (List Char)) : List Char := parts.flatMap ('/' :: ·)

theorem slashed_cons (s : List Char) (rest : List (List Char)) :
    slashed (s :: rest) = '/' :: (s ++ slashed rest) := rfl

theorem ofSegments_eq_slashed {parts : List (List Char)} (hne : parts ≠ []) :
    ofSegments parts = slashed parts := by
  induction parts with
  | nil => exact absurd rfl hne
  | cons s rest ih =>
      cases rest with
      | nil => simp [ofSegments, Text.joinWith, slashed]
      | cons r rs =>
          have hrest := ih (List.cons_ne_nil r rs)
          rw [slashed_cons, ← hrest]
          simp [ofSegments, Text.joinWith]

theorem segment_within {cs s : List Char} (h : s ∈ segments cs) : s <:+: cs := by
  obtain ⟨first, rest, hpieces, hfirst, hrest⟩ := Text.pieces_within (· == '/') cs
  have hmem := (List.mem_filter.mp h).1
  rw [hpieces] at hmem
  rcases List.mem_cons.mp hmem with rfl | hmem
  · exact hfirst.isInfix
  · exact hrest s hmem

/-- A slash divides the segments. -/
theorem segments_append_slash (front rest : List Char) :
    segments (front ++ '/' :: rest) = segments front ++ segments rest :=
  Text.fields_append_cons rfl front rest

theorem segments_slash (cs : List Char) : segments ('/' :: cs) = segments cs :=
  segments_append_slash [] cs

theorem segments_of_notMem {s : List Char} (hne : s ≠ []) (hslash : '/' ∉ s) :
    segments s = [s] := by
  apply Text.fields_eq_singleton hne
  intro c hc
  rw [beq_eq_false_iff_ne]
  rintro rfl
  exact hslash hc

theorem segments_slashed {parts : List (List Char)} (h : ∀ s ∈ parts, s ≠ [] ∧ '/' ∉ s) :
    segments (slashed parts) = parts := by
  induction parts with
  | nil => rfl
  | cons s rest ih =>
      obtain ⟨⟨hne, hslash⟩, hrest⟩ := List.forall_mem_cons.mp h
      rw [slashed_cons, segments_slash]
      cases rest with
      | nil => simpa [slashed] using segments_of_notMem hne hslash
      | cons r rs =>
          have htail := ih hrest
          rw [slashed_cons, segments_slash] at htail
          rw [slashed_cons, segments_append_slash, segments_of_notMem hne hslash, htail]
          rfl

theorem mem_slashed {c : Char} {parts : List (List Char)} (h : c ∈ slashed parts) :
    c = '/' ∨ ∃ s ∈ parts, c ∈ s := by
  obtain ⟨s, hs, hc⟩ := List.mem_flatMap.mp h
  exact (List.mem_cons.mp hc).imp_right fun hin => ⟨s, hs, hin⟩

/-- A text without a slash stands in one of the segments. -/
theorem infix_slashed {token : List Char} (hne : token ≠ []) (hslash : '/' ∉ token)
    {parts : List (List Char)} (h : token <:+: slashed parts) : ∃ s ∈ parts, token <:+: s := by
  induction parts with
  | nil => exact absurd (List.infix_nil.mp h) hne
  | cons s rest ih =>
      rw [slashed_cons, ← List.nil_append ('/' :: _)] at h
      have hbehind : token <:+: s ++ slashed rest := by
        rcases Text.infix_append_cons hslash h with hnil | hbehind
        · exact absurd (List.infix_nil.mp hnil) hne
        · exact hbehind
      cases rest with
      | nil => exact ⟨s, by simp, by simpa [slashed] using hbehind⟩
      | cons r rs =>
          rcases Text.infix_append_cons hslash hbehind with hs | hlater
          · exact ⟨s, by simp, hs⟩
          · obtain ⟨t, ht, htoken⟩ := ih (List.infix_cons hlater)
            exact ⟨t, List.mem_cons_of_mem _ ht, htoken⟩

theorem not_doubled_slashed {parts : List (List Char)} (h : ∀ s ∈ parts, s ≠ [] ∧ '/' ∉ s) :
    ¬ ['/', '/'] <:+: slashed parts := by
  induction parts with
  | nil => simp [slashed]
  | cons s rest ih =>
      obtain ⟨⟨hne, hslash⟩, hrest⟩ := List.forall_mem_cons.mp h
      -- Behind the first slash comes the segment, and in it there is none.
      have hskip : ∀ t : List Char, '/' ∉ t → ¬ ['/', '/'] <:+: t ++ slashed rest := by
        intro t ht
        induction t with
        | nil => exact ih hrest
        | cons c t iht =>
            rw [List.mem_cons, not_or] at ht
            rw [List.cons_append, List.infix_cons_iff, List.cons_prefix_cons, not_or]
            exact ⟨fun hc => ht.1 hc.1, iht ht.2⟩
      obtain ⟨c, t, rfl⟩ := List.exists_cons_of_ne_nil hne
      rw [slashed_cons, List.infix_cons_iff, not_or]
      refine ⟨?_, hskip _ hslash⟩
      intro hbegins
      rw [List.cons_append, List.cons_prefix_cons, List.cons_prefix_cons] at hbegins
      exact hslash (hbegins.2.1 ▸ List.mem_cons_self)

theorem getLast?_slashed_ne {parts : List (List Char)} (h : ∀ s ∈ parts, s ≠ [] ∧ '/' ∉ s) :
    (slashed parts).getLast? ≠ some '/' := by
  by_cases hnil : parts = []
  · simp [hnil, slashed]
  · obtain ⟨front, last, rfl⟩ := (List.eq_nil_or_concat' parts).resolve_left hnil
    obtain ⟨hne, hslash⟩ := h last (by simp)
    have hend : slashed (front ++ [last]) = (slashed front ++ ['/']) ++ last := by
      simp [slashed]
    rw [hend, List.getLast?_append_of_ne_nil _ hne]
    intro hlast
    exact hslash (List.mem_of_getLast? hlast)

end Route

namespace Url

open Text Route

/-! ## Slashes made single -/

/-- The text with single slashes, and none at its end. -/
def singled (cs : List Char) : List Char := dropEndSlash (collapseSlashes cs)

theorem collapseSlashes_cons_ne_nil (c : Char) (cs : List Char) :
    collapseSlashes (c :: cs) ≠ [] := by
  induction cs generalizing c with
  | nil => simp [collapseSlashes]
  | cons d cs ih =>
      rw [collapseSlashes]
      split
      · exact ih d
      · simp

theorem dropEndSlash_cons (c : Char) {cs : List Char} (h : cs ≠ []) :
    dropEndSlash (c :: cs) = c :: dropEndSlash cs := by
  obtain ⟨d, rest, rfl⟩ := List.exists_cons_of_ne_nil h
  simp only [dropEndSlash, List.getLast?_cons_cons, List.dropLast_cons_cons]
  split <;> rfl

theorem singled_slashes (cs : List Char) : singled ('/' :: '/' :: cs) = singled ('/' :: cs) := by
  simp [singled, collapseSlashes]

theorem singled_cons {c d : Char} (h : c ≠ '/' ∨ d ≠ '/') (cs : List Char) :
    singled (c :: d :: cs) = c :: singled (d :: cs) := by
  have hkept : collapseSlashes (c :: d :: cs) = c :: collapseSlashes (d :: cs) := by
    rw [collapseSlashes]
    apply if_neg
    rcases h with h | h <;> simp [h]
  rw [singled, hkept, dropEndSlash_cons c (collapseSlashes_cons_ne_nil d cs), singled]

theorem segments_cons_cons {c d : Char} (hc : c ≠ '/') (hd : d ≠ '/') (cs : List Char) :
    ∃ s rest, segments (d :: cs) = (d :: s) :: rest ∧
      segments (c :: d :: cs) = (c :: d :: s) :: rest := by
  obtain ⟨first, rest, hpieces, -⟩ := pieces_within (· == '/') cs
  refine ⟨first, rest.filter (fun piece => !piece.isEmpty), ?_, ?_⟩
  · simp [segments, fields, splitWhere, hd, hpieces, extendHead]
  · simp [segments, fields, splitWhere, hc, hd, hpieces, extendHead]

/-- What is left of a text behind a slash, and of a text that begins with another character. -/
theorem singled_eq (cs : List Char) : singled ('/' :: cs) = slashed (segments cs) ∧
    ∀ c, c ≠ '/' → '/' :: singled (c :: cs) = slashed (segments (c :: cs)) := by
  induction cs with
  | nil =>
      refine ⟨rfl, fun c hc => ?_⟩
      rw [segments_of_notMem (List.cons_ne_nil c []) (by simpa [eq_comm] using hc)]
      simp [singled, collapseSlashes, dropEndSlash, slashed, hc]
  | cons d cs ih =>
      by_cases hd : d = '/'
      · subst hd
        refine ⟨by rw [singled_slashes, ih.1, segments_slash], fun c hc => ?_⟩
        have hfirst := segments_of_notMem (List.cons_ne_nil c []) (by simpa [eq_comm] using hc)
        have hsegments : segments (c :: '/' :: cs) = [c] :: segments cs := by
          rw [← List.singleton_append, segments_append_slash, hfirst]
          rfl
        rw [singled_cons (.inl hc), ih.1, hsegments]
        rfl
      · refine ⟨by rw [singled_cons (.inr hd), ih.2 d hd], fun c hc => ?_⟩
        obtain ⟨s, rest, hone, htwo⟩ := segments_cons_cons hc hd cs
        have hbehind := ih.2 d hd
        rw [hone, slashed_cons] at hbehind
        rw [singled_cons (.inl hc), htwo, (List.cons.inj hbehind).2, slashed_cons]
        rfl

theorem rooted_slashed (parts : List (List Char)) : rooted (slashed parts) = slashed parts := by
  cases parts with
  | nil => rfl
  | cons s rest => simp [rooted, slashed_cons]

theorem rooted_singled (cs : List Char) : rooted (singled cs) = slashed (segments cs) := by
  cases cs with
  | nil => rfl
  | cons c cs =>
      by_cases hc : c = '/'
      · subst hc
        rw [(singled_eq cs).1, rooted_slashed, segments_slash]
      · rw [← (singled_eq cs).2 c hc]
        -- The first character is kept, and is not a slash.
        have hfirst : ∃ rest, singled (c :: cs) = c :: rest := by
          cases cs with
          | nil => exact ⟨[], by simp [singled, collapseSlashes, dropEndSlash, hc]⟩
          | cons d cs => exact ⟨_, singled_cons (.inl hc) cs⟩
        obtain ⟨rest, hrest⟩ := hfirst
        simp [hrest, rooted, hc]

/-! ## Paths and their segments -/

/-- What remains of an address without its host, its query and its dynamic parts. -/
def remaining (u : List Char) : List Char := without dynamicToken (withoutQuery (located (trim u)))

/-- A comparable path is made of the segments of what remains of the address. -/
theorem path_eq_slashed (u : List Char) : path u = slashed (segments (remaining u)) := by
  have htrim : path u = path (trim u) := by
    unfold path
    rw [trim_eq_self (beginsPlain_trim u) (endsPlain_trim u)]
  rw [htrim, path_eq (beginsPlain_trim u) (endsPlain_trim u)]
  exact rooted_singled (remaining u)

theorem segments_path (u : List Char) : segments (path u) = segments (remaining u) := by
  rw [path_eq_slashed]
  exact segments_slashed fun s hs => of_mem_segments hs

theorem slashed_segments_path (u : List Char) : slashed (segments (path u)) = path u := by
  rw [segments_path, ← path_eq_slashed]

theorem dynamicToken_ne_nil : dynamicToken ≠ [] := by decide

theorem unmarked_withoutQuery (cs : List Char) : Unmarked (withoutQuery cs) := by
  refine ⟨fun hin => ?_, notMem_before '#' _⟩
  have hbegins : withoutQuery cs <+: before '?' cs := List.takeWhile_prefix _
  exact notMem_before '?' cs (hbegins.mem hin)

theorem mem_located {c : Char} {u : List Char} (h : c ∈ located u) : c = '/' ∨ c ∈ u := by
  unfold located at h
  cases hscheme : afterScheme? u with
  | none =>
      rw [hscheme] at h
      exact .inr h
  | some rest =>
      rw [hscheme, Option.elim_some] at h
      rcases fromSlash_suffix rest with hsuffix | hroot
      · exact .inr ((afterScheme?_suffix hscheme).mem (hsuffix.mem h))
      · rw [hroot] at h
        exact .inl (List.mem_singleton.mp h)

theorem mem_of_mem_path {c : Char} {u : List Char} (h : c ∈ path u) :
    c = '/' ∨ c ∈ withoutQuery (located (trim u)) := by
  rw [path_eq_slashed] at h
  apply (mem_slashed h).imp_right
  rintro ⟨s, hs, hc⟩
  exact mem_of_mem_without dynamicToken_ne_nil ((segment_within hs).mem hc)

theorem unmarked_path (u : List Char) : Unmarked (path u) := by
  obtain ⟨hquery, hhash⟩ := unmarked_withoutQuery (located (trim u))
  constructor
  · intro hin
    exact (mem_of_mem_path hin).elim (by decide) hquery
  · intro hin
    exact (mem_of_mem_path hin).elim (by decide) hhash

theorem not_blank_of_mem_path {u : List Char} (h : ∀ c ∈ u, isBlank c = false) :
    ∀ c ∈ path u, isBlank c = false := by
  have hslash : isBlank '/' = false := by decide
  intro c hc
  rcases mem_of_mem_path hc with rfl | hquery
  · exact hslash
  · have hbefore : (withoutQuery (located (trim u))).Sublist (located (trim u)) :=
      (List.takeWhile_sublist _).trans (List.takeWhile_sublist _)
    rcases mem_located (hbefore.mem hquery) with rfl | hin
    · exact hslash
    · exact h c (mem_of_mem_trim hin)

/-! ## Paths of paths -/

theorem without_before {token : List Char} (hne : token ≠ []) {c : Char} (hc : c ∉ token)
    (cs : List Char) : without token (before c cs) <+: without token cs := by
  by_cases hin : c ∈ cs
  · obtain ⟨front, rest, rfl, hfront⟩ := List.eq_append_cons_of_mem hin
    have hbefore : before c (front ++ c :: rest) = front := by
      rw [before_append hfront]
      simp [before]
    rw [hbefore, without_append_cons hne hc]
    exact List.prefix_append _ _
  · rw [before_eq_self hin]

/-- The path of an address is set off by a slash before it, if not by its beginning. -/
theorem located_cases (u : List Char) : located u = u ∨ located u = ['/'] ∨
    ∃ front rest, u = front ++ '/' :: rest ∧ located u = '/' :: rest := by
  unfold located
  cases hscheme : afterScheme? u with
  | none => exact .inl rfl
  | some rest =>
      right
      rw [Option.elim_some]
      rcases fromSlash_suffix rest with hsuffix | hroot
      · right
        obtain ⟨after, hafter⟩ := exists_fromSlash rest
        obtain ⟨front, hfront⟩ := hsuffix.trans (afterScheme?_suffix hscheme)
        rw [hafter] at hfront
        exact ⟨front, after, hfront.symm, hafter⟩
      · exact .inl hroot

/-- Taking the token out of the path brings none together that would not come together in the whole
address: the characters that set the path off are not part of it. -/
theorem token_of_remaining {u : List Char}
    (h : dynamicToken <:+: without dynamicToken (withoutQuery (located u))) :
    dynamicToken <:+: without dynamicToken u := by
  have hquery :
      without dynamicToken (withoutQuery (located u)) <+: without dynamicToken (located u) :=
    (without_before dynamicToken_ne_nil (by decide) _).trans
      (without_before dynamicToken_ne_nil (by decide) _)
  have hlocated := h.trans hquery.isInfix
  have hslash : '/' ∉ dynamicToken := by decide
  rcases located_cases u with hall | hroot | ⟨front, rest, hu, hpath⟩
  · rwa [hall] at hlocated
  · rw [hroot] at hlocated
    exact absurd hlocated (by decide)
  · rw [hpath, ← List.nil_append ('/' :: rest),
      without_append_cons dynamicToken_ne_nil hslash] at hlocated
    rw [hu, without_append_cons dynamicToken_ne_nil hslash]
    exact hlocated.trans (List.suffix_append _ _).isInfix

theorem token_of_path {u : List Char} (h : dynamicToken <:+: path u) :
    dynamicToken <:+: remaining u := by
  rw [path_eq_slashed] at h
  obtain ⟨s, hs, htoken⟩ := infix_slashed dynamicToken_ne_nil (by decide) h
  exact htoken.trans (segment_within hs)

theorem located_path (u : List Char) : located (path u) = path u := by
  rw [path_eq_slashed]
  cases segments (remaining u) with
  | nil => rfl
  | cons s rest => rfl

/-- All of a path remains that has no blanks and no dynamic parts. -/
theorem remaining_path {u : List Char} (hblank : ∀ c ∈ path u, isBlank c = false)
    (htoken : ¬ dynamicToken <:+: path u) : remaining (path u) = path u := by
  obtain ⟨hquery, hhash⟩ := unmarked_path u
  have hwhole : withoutQuery (path u) = path u := by
    rw [withoutQuery, before_eq_self hquery, before_eq_self hhash]
  rw [remaining, trim_eq_self_of_not_blank hblank, located_path, hwhole, without_eq_self htoken]

/-- **Comparable paths are tidy, and stay as they are.** A path is empty, or its segments each
behind one slash, with no mark of a query or a fragment in it. The path of a path is the path
itself, if the address has no blanks and taking the dynamic parts out of it does not leave another
one. -/
theorem path_tidy_and_stable (u : List Char) :
    (path u = [] ∨ (path u).head? = some '/' ∧ ¬ ['/', '/'] <:+: path u ∧
      (path u).getLast? ≠ some '/' ∧ '?' ∉ path u ∧ '#' ∉ path u) ∧
    path u = slashed (segments (remaining u)) ∧
    ((∀ c ∈ u, isBlank c = false) → ¬ dynamicToken <:+: without dynamicToken u →
      path (path u) = path u) := by
  have hsegments : ∀ s ∈ segments (remaining u), s ≠ [] ∧ '/' ∉ s := fun s hs => of_mem_segments hs
  refine ⟨?_, path_eq_slashed u, fun hblank htoken => ?_⟩
  · by_cases hempty : path u = []
    · exact .inl hempty
    · refine .inr ⟨?_, ?_, ?_, unmarked_path u⟩
      · rw [path_eq_slashed] at hempty ⊢
        cases hparts : segments (remaining u) with
        | nil => exact absurd (congrArg slashed hparts) hempty
        | cons s rest => rfl
      · rw [path_eq_slashed]
        exact not_doubled_slashed hsegments
      · rw [path_eq_slashed]
        exact getLast?_slashed_ne hsegments
  · have hleft : ¬ dynamicToken <:+: path u := by
      intro hin
      apply htoken
      have hremaining := token_of_path hin
      rw [remaining, trim_eq_self_of_not_blank hblank] at hremaining
      exact token_of_remaining hremaining
    rw [path_eq_slashed (path u), remaining_path (not_blank_of_mem_path hblank) hleft,
      slashed_segments_path]

/-- A host, doubled slashes, a dynamic part at the end of a segment and a query. -/
def untidyAddress : List Char := "http://gw:80//shop//orders<dynamic>/5/?next=/a#b".toList

theorem untidyAddress_stable :
    (∀ c ∈ untidyAddress, isBlank c = false) ∧
    ¬ dynamicToken <:+: without dynamicToken untidyAddress ∧
    path untidyAddress = "/shop/orders/5".toList ∧
    path (path untidyAddress) = path untidyAddress := by
  have hall : untidyAddress.all (fun c => !isBlank c) = true := by decide
  have hblank : ∀ c ∈ untidyAddress, isBlank c = false := by
    simpa using List.all_eq_true.mp hall
  have htoken : ¬ dynamicToken <:+: without dynamicToken untidyAddress := by decide
  exact ⟨hblank, htoken, by decide, (path_tidy_and_stable untidyAddress).2.2 hblank htoken⟩

/-- Taking out a dynamic part may bring another one together, and a blank may come to stand at the
end: then the path of the path is another one. -/
example : path (path "/<dyn<dynamic>amic>/a".toList) ≠ path "/<dyn<dynamic>amic>/a".toList ∧
    path (path "/a ?b".toList) ≠ path "/a ?b".toList := by
  decide

end Url

end ArchGraph
