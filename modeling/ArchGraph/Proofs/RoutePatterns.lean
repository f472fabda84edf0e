import ArchGraph.Proofs.Scanning
import ArchGraph.Route.Pattern
import Mathlib.Data.List.TakeWhile

/-!
What a route pattern accepts. The body of a pattern is what is left of it without a wildcard at its
end. A pattern accepts just the texts that its body becomes when every placeholder in it is replaced
by a non-empty text without a slash; behind a wildcard, a slash and text on the same line may
follow.

* `OpensPlaceholder` says where a placeholder stands, and `placeholder_induction` follows a body
  from left to right;
* `Filled` is the replacement, and `fits_piecesOf_iff` says that matching piece by piece finds one
  whenever there is one;
* `accepts_iff_filled` is the result for a pattern.
-/

namespace ArchGraph

namespace Identifier

open Text

/-! ## Placeholders -/

/-- A placeholder stands at the beginning of the text, and `rest` behind it. -/
def OpensPlaceholder (cs rest : List Char) : Prop :=
  ∃ name, name ≠ [] ∧ '\x7d' ∉ name ∧ cs = '\x7b' :: (name ++ '\x7d' :: rest)

section

variable {β : Type} {found : β}

theorem placeholder_eq {name : List Char} (hne : name ≠ []) (hname : '\x7d' ∉ name)
    (rest : List Char) :
    placeholder found ('\x7b' :: (name ++ '\x7d' :: rest)) = some (found, name.length + 2) := by
  have hwhile : (name ++ '\x7d' :: rest).takeWhile (· != '\x7d') = name := by
    rw [List.takeWhile_append_of_pos]
    · simp
    · intro c hc
      rw [bne_iff_ne]
      rintro rfl
      exact hname hc
  simp [placeholder, hwhile, hne]

theorem placeholder_eq_none {c : Char} (hc : c ≠ '\x7b') (cs : List Char) :
    placeholder found (c :: cs) = none := by
  unfold placeholder
  split
  · rename_i heq
    exact absurd (List.cons.inj heq).1 hc
  · rfl

theorem opens_of_placeholder {cs : List Char} {x : β} {covered : Nat}
    (h : placeholder found cs = some (x, covered)) : ∃ rest, OpensPlaceholder cs rest := by
  unfold placeholder at h
  split at h
  · rename_i cs
    simp only [Option.ite_none_left_eq_some, Bool.or_eq_true, not_or] at h
    obtain ⟨⟨hne, hlength⟩, -⟩ := h
    cases hrest : cs.dropWhile (· != '\x7d') with
    | nil =>
        -- Nothing behind the name: no brace closes it.
        exfalso
        apply hlength
        have hall := List.dropWhile_eq_nil_iff.mp hrest
        rw [List.takeWhile_eq_self_iff.mpr hall]
        simp
    | cons brace rest =>
        have hbrace := List.head?_dropWhile_not (· != '\x7d') cs
        rw [hrest] at hbrace
        obtain rfl : brace = '\x7d' := by simpa using hbrace
        refine ⟨rest, cs.takeWhile (· != '\x7d'), by simpa using hne, ?_, ?_⟩
        · intro hin
          simpa using List.mem_takeWhile_imp hin
        · rw [← hrest, List.takeWhile_append_dropWhile]
  · cases h

/-- A placeholder ends at its first closing brace. -/
theorem OpensPlaceholder.unique {cs rest rest' : List Char} (h : OpensPlaceholder cs rest)
    (h' : OpensPlaceholder cs rest') : rest = rest' := by
  obtain ⟨name, hne, hname, rfl⟩ := h
  obtain ⟨name', hne', hname', hcs⟩ := h'
  have hfound := @placeholder_eq Unit () name hne hname rest
  rw [hcs, placeholder_eq hne' hname'] at hfound
  have hlength : name'.length = name.length := by simpa using hfound
  have hsame := List.append_inj (List.cons.inj hcs).2 hlength.symm
  exact (List.cons.inj hsame.2).2

theorem scan_opens {keep : Char → β} {cs rest : List Char} (h : OpensPlaceholder cs rest) :
    scan (placeholder found) keep cs = found :: scan (placeholder found) keep rest := by
  obtain ⟨name, hne, hname, rfl⟩ := h
  rw [scan_cons_of_some (placeholder_eq hne hname rest)]
  simp

theorem scan_plain {keep : Char → β} {c : Char} {cs : List Char}
    (h : ∀ rest, ¬ OpensPlaceholder (c :: cs) rest) :
    scan (placeholder found) keep (c :: cs) = keep c :: scan (placeholder found) keep cs := by
  apply scan_cons_of_none
  rw [Option.eq_none_iff_forall_ne_some]
  rintro ⟨x, covered⟩ hfound
  obtain ⟨rest, hopens⟩ := opens_of_placeholder hfound
  exact h rest hopens

end

/-- From left to right, a text is placeholders and the characters between them. -/
theorem placeholder_induction {P : List Char → Prop} (nil : P [])
    (opens : ∀ cs rest, OpensPlaceholder cs rest → P rest → P cs)
    (plain : ∀ c cs, (∀ rest, ¬ OpensPlaceholder (c :: cs) rest) → P cs → P (c :: cs))
    (cs : List Char) : P cs := by
  refine scan_induction (placeholder ()) nil ?_ ?_ cs
  · intro c cs x covered hfound ih
    obtain ⟨rest, name, hne, hname, hcs⟩ := opens_of_placeholder hfound
    rw [hcs, placeholder_eq hne hname] at hfound
    obtain ⟨rfl, rfl⟩ := List.cons.inj hcs
    obtain ⟨-, rfl⟩ := Prod.mk.inj (Option.some.inj hfound)
    apply opens _ rest ⟨name, hne, hname, rfl⟩
    simpa using ih
  · intro c cs hnone ih
    apply plain c cs _ ih
    rintro rest ⟨name, hne, hname, hcs⟩
    rw [hcs, placeholder_eq hne hname] at hnone
    cases hnone

end Identifier

namespace Route

open Identifier

/-! ## Bodies filled in -/

/-- The text is the body with every placeholder, read from left to right, replaced by a non-empty
text without a slash. -/
inductive Filled : List Char → List Char → Prop where
  | nil : Filled [] []
  | placeholder {body rest part text : List Char} (hopens : OpensPlaceholder body rest)
      (hne : part ≠ []) (hslash : '/' ∉ part) (hrest : Filled rest text) :
      Filled body (part ++ text)
  | char {c : Char} {body text : List Char} (hplain : ∀ rest, ¬ OpensPlaceholder (c :: body) rest)
      (hrest : Filled body text) : Filled (c :: body) (c :: text)

theorem filled_opens_iff {body rest text : List Char} (h : OpensPlaceholder body rest) :
    Filled body text ↔
      ∃ part more, text = part ++ more ∧ part ≠ [] ∧ '/' ∉ part ∧ Filled rest more := by
  constructor
  · intro hfilled
    cases hfilled with
    | nil =>
        obtain ⟨name, _, _, hcs⟩ := h
        cases hcs
    | placeholder hopens hne hslash hrest =>
        rw [hopens.unique h] at hrest
        exact ⟨_, _, rfl, hne, hslash, hrest⟩
    | char hplain hrest => exact absurd h (hplain rest)
  · rintro ⟨part, more, rfl, hne, hslash, hrest⟩
    exact .placeholder h hne hslash hrest

theorem filled_plain_iff {c : Char} {body text : List Char}
    (h : ∀ rest, ¬ OpensPlaceholder (c :: body) rest) :
    Filled (c :: body) text ↔ ∃ more, text = c :: more ∧ Filled body more := by
  constructor
  · intro hfilled
    cases hfilled with
    | placeholder hopens => exact absurd hopens (h _)
    | char _ hrest => exact ⟨_, rfl, hrest⟩
  · rintro ⟨more, rfl, hrest⟩
    exact .char h hrest

/-- What may follow the body: behind a wildcard, a slash and text on the same line. -/
def Follows (openEnd : Bool) (tail : List Char) : Prop :=
  tail = [] ∨ openEnd = true ∧ ∃ text, tail = '/' :: text ∧ '\n' ∉ text

/-! ## Matching piece by piece -/

theorem fits_nil_iff {openEnd : Bool} {cs : List Char} :
    fits openEnd [] cs = true ↔ Follows openEnd cs := by
  cases openEnd with
  | false => simp [fits, Follows]
  | true =>
      cases cs with
      | nil => simp [fits, isTail, Follows]
      | cons c cs => simp [fits, isTail, Follows]

theorem fits_char_iff {openEnd : Bool} {c : Char} {pieces : List Piece} {cs : List Char} :
    fits openEnd (.char c :: pieces) cs = true ↔
      ∃ rest, cs = c :: rest ∧ fits openEnd pieces rest = true := by
  cases cs with
  | nil => simp [fits]
  | cons d cs =>
      simp only [fits, Bool.and_eq_true, beq_iff_eq]
      constructor
      · rintro ⟨rfl, hfits⟩
        exact ⟨cs, rfl, hfits⟩
      · rintro ⟨rest, hcs, hfits⟩
        obtain ⟨rfl, rfl⟩ := List.cons.inj hcs
        exact ⟨rfl, hfits⟩

/-- A hole takes any non-empty text without a slash, as long as the rest fits. -/
theorem fits_hole_iff {openEnd : Bool} {pieces : List Piece} {cs : List Char} :
    fits openEnd (.hole :: pieces) cs = true ↔
      ∃ part rest, cs = part ++ rest ∧ part ≠ [] ∧ '/' ∉ part ∧
        fits openEnd pieces rest = true := by
  induction cs with
  | nil => simp [fits]
  | cons d cs ih =>
      simp only [fits, Bool.and_eq_true, Bool.or_eq_true, bne_iff_ne, ne_eq, ih]
      constructor
      · rintro ⟨hd, hfits | ⟨part, rest, rfl, hne, hslash, hfits⟩⟩
        · exact ⟨[d], cs, rfl, by simp, by simpa [eq_comm] using hd, hfits⟩
        · exact ⟨d :: part, rest, rfl, by simp, by simp [eq_comm, hd, hslash], hfits⟩
      · rintro ⟨part, rest, hcs, hne, hslash, hfits⟩
        obtain ⟨e, part, rfl⟩ := List.exists_cons_of_ne_nil hne
        obtain ⟨rfl, rfl⟩ := List.cons.inj hcs
        rw [List.mem_cons, not_or] at hslash
        refine ⟨fun hd => hslash.1 hd.symm, ?_⟩
        by_cases hpart : part = []
        · subst hpart
          exact .inl hfits
        · exact .inr ⟨part, rest, rfl, hpart, hslash.2, hfits⟩

/-- Matching finds a way to fill the placeholders whenever there is one. -/
theorem fits_piecesOf_iff {openEnd : Bool} {body cs : List Char} :
    fits openEnd (piecesOf body) cs = true ↔
      ∃ filled tail, cs = filled ++ tail ∧ Filled body filled ∧ Follows openEnd tail := by
  induction body using placeholder_induction generalizing cs with
  | nil =>
      have hnil : piecesOf [] = [] := rfl
      rw [hnil, fits_nil_iff]
      constructor
      · intro hfollows
        exact ⟨[], cs, rfl, .nil, hfollows⟩
      · rintro ⟨filled, tail, rfl, hfilled, hfollows⟩
        cases hfilled with
        | nil => exact hfollows
        | placeholder hopens =>
            obtain ⟨name, _, _, hname⟩ := hopens
            cases hname
  | opens body rest hopens ih =>
      have hpieces : piecesOf body = .hole :: piecesOf rest := scan_opens hopens
      simp only [hpieces, fits_hole_iff, filled_opens_iff hopens, ih]
      constructor
      · rintro ⟨part, _, rfl, hne, hslash, filled, tail, rfl, hfilled, hfollows⟩
        exact ⟨part ++ filled, tail, by simp, ⟨part, filled, rfl, hne, hslash, hfilled⟩, hfollows⟩
      · rintro ⟨_, tail, rfl, ⟨part, filled, rfl, hne, hslash, hfilled⟩, hfollows⟩
        exact ⟨part, filled ++ tail, by simp, hne, hslash, filled, tail, rfl, hfilled, hfollows⟩
  | plain c body hplain ih =>
      have hpieces : piecesOf (c :: body) = .char c :: piecesOf body := scan_plain hplain
      simp only [hpieces, fits_char_iff, filled_plain_iff hplain, ih]
      constructor
      · rintro ⟨_, rfl, filled, tail, rfl, hfilled, hfollows⟩
        exact ⟨c :: filled, tail, rfl, ⟨filled, rfl, hfilled⟩, hfollows⟩
      · rintro ⟨_, tail, rfl, ⟨filled, rfl, hfilled⟩, hfollows⟩
        exact ⟨filled ++ tail, rfl, filled, tail, rfl, hfilled, hfollows⟩

/-! ## Wildcards -/

/-- The body of a pattern, and whether its end is open: one `/**` at the end is taken off, or else
one `/*`. -/
inductive HasBody (pattern : List Char) : List Char → Bool → Prop where
  | deep {body : List Char} (h : pattern = body ++ ['/', '*', '*']) : HasBody pattern body true
  | flat {body : List Char} (hdeep : ¬ ['/', '*', '*'] <:+ pattern)
      (h : pattern = body ++ ['/', '*']) : HasBody pattern body true
  | closed (hdeep : ¬ ['/', '*', '*'] <:+ pattern) (hflat : ¬ ['/', '*'] <:+ pattern) :
      HasBody pattern pattern false

theorem withoutTail?_append (body tail : List Char) :
    withoutTail? tail (body ++ tail) = some body := by
  simp [withoutTail?]

theorem withoutTail?_eq_none {tail cs : List Char} (h : ¬ tail <:+ cs) :
    withoutTail? tail cs = none := by
  simp [withoutTail?, h]

theorem parse_of_hasBody {pattern body : List Char} {openEnd : Bool}
    (h : HasBody pattern body openEnd) : Pattern.parse pattern = ⟨piecesOf body, openEnd⟩ := by
  cases h with
  | deep h => simp [Pattern.parse, h, withoutTail?_append]
  | flat hdeep h =>
      subst h
      simp [Pattern.parse, withoutTail?_eq_none hdeep, withoutTail?_append]
  | closed hdeep hflat =>
      simp [Pattern.parse, withoutTail?_eq_none hdeep, withoutTail?_eq_none hflat]

theorem exists_hasBody (pattern : List Char) : ∃ body openEnd, HasBody pattern body openEnd := by
  by_cases hdeep : ['/', '*', '*'] <:+ pattern
  · obtain ⟨body, hbody⟩ := hdeep
    exact ⟨body, true, .deep hbody.symm⟩
  · by_cases hflat : ['/', '*'] <:+ pattern
    · obtain ⟨body, hbody⟩ := hflat
      exact ⟨body, true, .flat hdeep hbody.symm⟩
    · exact ⟨pattern, false, .closed hdeep hflat⟩

/-- **A pattern accepts what its body can be filled to.** A path is accepted just if it is the body
of the pattern with each placeholder replaced by a non-empty text without a slash, followed by
nothing or, where the pattern has a wildcard, by a slash and text on the same line. -/
theorem accepts_iff_filled (path pattern : List Char) :
    (Pattern.parse pattern).accepts path = true ↔
      ∃ body openEnd filled tail, HasBody pattern body openEnd ∧ Filled body filled ∧
        Follows openEnd tail ∧ path = filled ++ tail := by
  constructor
  · intro haccepts
    obtain ⟨body, openEnd, hbody⟩ := exists_hasBody pattern
    rw [parse_of_hasBody hbody] at haccepts
    obtain ⟨filled, tail, hpath, hfilled, hfollows⟩ := fits_piecesOf_iff.mp haccepts
    exact ⟨body, openEnd, filled, tail, hbody, hfilled, hfollows, hpath⟩
  · rintro ⟨body, openEnd, filled, tail, hbody, hfilled, hfollows, hpath⟩
    rw [parse_of_hasBody hbody]
    exact fits_piecesOf_iff.mpr ⟨filled, tail, hpath, hfilled, hfollows⟩

/-- A placeholder may be part of a segment, and braces with nothing between them are none. -/
example : (Pattern.parse "/\x7b\x7d/\x7bid\x7d.json/**".toList).accepts
      "/\x7b\x7d/5.json/lines/1".toList = true ∧
    (Pattern.parse "/\x7b\x7d/\x7bid\x7d.json/**".toList).accepts "/a/5.json".toList = false := by
  decide

end Route

end ArchGraph
