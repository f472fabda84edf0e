import ArchGraph.Identifier
import Mathlib.Data.List.Infix
import Mathlib.Data.List.TakeWhile

/-!
Queries and fragments of addresses. Where an address has a path, what follows a question mark or a
hash makes no difference, neither to the path that routes are compared with nor to the one that
identifiers keep. The path behind a host is looked for before the query is cut off, though. So after
a host without a path, the query is taken for one from its first slash on
(`query_of_host_read_as_path`).

* `located_append` says where the path of an address is looked for once a query is appended;
* `path_eq` and `keptPath_eq` give both paths by what is found there;
* `query_ignored_iff` puts them together.
-/

namespace ArchGraph

namespace Text

/-- No blank stands at the beginning. -/
def BeginsPlain (cs : List Char) : Prop := ∀ c ∈ cs.head?, isBlank c = false

/-- No blank stands at the end. -/
def EndsPlain (cs : List Char) : Prop := ∀ c ∈ cs.getLast?, isBlank c = false

instance (cs : List Char) : Decidable (BeginsPlain cs) :=
  decidable_of_iff (cs.head?.all (!isBlank ·) = true) (by simp [BeginsPlain, Option.all_eq_true])

instance (cs : List Char) : Decidable (EndsPlain cs) :=
  decidable_of_iff (cs.getLast?.all (!isBlank ·) = true) (by simp [EndsPlain, Option.all_eq_true])

theorem dropWhile_blank {cs : List Char} (h : BeginsPlain cs) : cs.dropWhile isBlank = cs := by
  cases cs with
  | nil => rfl
  | cons c cs => rw [List.dropWhile_cons_of_neg (by simp [h c rfl])]

theorem trim_eq_self {cs : List Char} (hbegin : BeginsPlain cs) (hend : EndsPlain cs) :
    trim cs = cs := by
  have hreverse : BeginsPlain cs.reverse := by
    intro c hc
    exact hend c (by rwa [List.head?_reverse] at hc)
  unfold trim trimWhere
  rw [dropWhile_blank hbegin, dropWhile_blank hreverse, List.reverse_reverse]

theorem BeginsPlain.append {cs rest : List Char} (h : BeginsPlain cs) (hrest : BeginsPlain rest) :
    BeginsPlain (cs ++ rest) := by
  cases cs with
  | nil => exact hrest
  | cons c cs => exact h

theorem EndsPlain.append (cs : List Char) {rest : List Char} (hne : rest ≠ [])
    (h : EndsPlain rest) :
    EndsPlain (cs ++ rest) := by
  intro c hc
  rw [List.getLast?_append_of_ne_nil _ hne] at hc
  exact h c hc

theorem EndsPlain.cons {c : Char} {cs : List Char} (hc : isBlank c = false) (h : EndsPlain cs) :
    EndsPlain (c :: cs) := by
  cases cs with
  | nil =>
      intro d hd
      rw [← Option.some.inj hd]
      exact hc
  | cons d cs => exact EndsPlain.append [c] (List.cons_ne_nil _ _) h

end Text

namespace Url

open Text

/-! ## Where the path ends -/

/-- The two characters that end a path. -/
def EndsPath (c : Char) : Prop := c = '?' ∨ c = '#'

/-- No character ends the path. -/
def Unmarked (cs : List Char) : Prop := '?' ∉ cs ∧ '#' ∉ cs

theorem Unmarked.suffix {cs rest : List Char} (h : Unmarked cs) (hsuffix : rest <:+ cs) :
    Unmarked rest :=
  ⟨fun hin => h.1 (hsuffix.mem hin), fun hin => h.2 (hsuffix.mem hin)⟩

theorem before_append {c : Char} {cs : List Char} (h : c ∉ cs) (rest : List Char) :
    before c (cs ++ rest) = cs ++ before c rest := by
  unfold before
  rw [List.takeWhile_append_of_pos]
  intro d hd
  rw [bne_iff_ne]
  rintro rfl
  exact h hd

theorem before_eq_self {c : Char} {cs : List Char} (h : c ∉ cs) : before c cs = cs := by
  simpa [before] using before_append h []

theorem withoutQuery_append {cs : List Char} (h : Unmarked cs) {mark : Char} (hmark : EndsPath mark)
    (q : List Char) : withoutQuery (cs ++ mark :: q) = withoutQuery cs := by
  unfold withoutQuery
  rw [before_append h.1, before_eq_self h.1, before_append h.2, before_eq_self h.2]
  rcases hmark with rfl | rfl
  · simp [before]
  · simp [before]

/-! ## Where the path begins -/

/-- What follows `://`, if the text begins so. -/
def afterColon? : List Char → Option (List Char)
  | ':' :: '/' :: '/' :: after => some after
  | _ => none

theorem afterScheme?_cons (c : Char) (cs : List Char) : afterScheme? (c :: cs) =
    if isLetter c then afterColon? (cs.dropWhile isSchemeChar) else none := by
  rfl

theorem afterColon?_append (cs : List Char) {mark : Char} (hmark : EndsPath mark) (q : List Char) :
    afterColon? (cs ++ mark :: q) = (afterColon? cs).map (· ++ mark :: q) := by
  have hother : mark ≠ ':' ∧ mark ≠ '/' := by rcases hmark with rfl | rfl <;> decide
  fun_cases afterColon? cs with
  | case1 after => rfl
  | case2 hno =>
      rw [Option.map_none]
      unfold afterColon?
      split
      · rename_i after heq
        exfalso
        -- The mark is none of the three characters, so they all stand before it.
        rcases cs with _ | ⟨a, _ | ⟨b, _ | ⟨c, cs⟩⟩⟩ <;> simp_all
      · rfl

/-- A scheme ends before a mark, if there is one. -/
theorem afterScheme?_append (u : List Char) {mark : Char} (hmark : EndsPath mark) (q : List Char) :
    afterScheme? (u ++ mark :: q) = (afterScheme? u).map (· ++ mark :: q) := by
  have hother : isLetter mark = false ∧ isSchemeChar mark = false := by
    rcases hmark with rfl | rfl <;> decide
  cases u with
  | nil => rw [List.nil_append, afterScheme?_cons, hother.1]; rfl
  | cons c cs =>
      rw [List.cons_append, afterScheme?_cons, afterScheme?_cons]
      split
      · rw [List.dropWhile_append, List.dropWhile_cons_of_neg (by simp [hother.2])]
        split
        · rename_i hnone
          rw [List.isEmpty_iff.mp hnone]
          exact afterColon?_append [] hmark q
        · exact afterColon?_append _ hmark q
      · rfl

theorem afterColon?_suffix {cs after : List Char} (h : afterColon? cs = some after) :
    after <:+ cs := by
  unfold afterColon? at h
  split at h
  · obtain rfl := Option.some.inj h
    exact ⟨[':', '/', '/'], rfl⟩
  · cases h

theorem afterScheme?_suffix {u rest : List Char} (h : afterScheme? u = some rest) : rest <:+ u := by
  cases u with
  | nil => cases h
  | cons c cs =>
      rw [afterScheme?_cons] at h
      split at h
      · exact (afterColon?_suffix h).trans ((List.dropWhile_suffix _).trans (List.suffix_cons c cs))
      · cases h

/-- A text from its first slash on, or the root path if it has none. -/
def fromSlash (cs : List Char) : List Char :=
  if cs.contains '/' then cs.dropWhile (· != '/') else ['/']

theorem dropWhile_slash {cs : List Char} (h : '/' ∉ cs) : cs.dropWhile (· != '/') = [] := by
  rw [List.dropWhile_eq_nil_iff]
  intro c hc
  rw [bne_iff_ne]
  rintro rfl
  exact h hc

theorem fromSlash_of_not_mem {cs : List Char} (h : '/' ∉ cs) : fromSlash cs = ['/'] :=
  if_neg (by simpa using h)

theorem fromSlash_append (cs rest : List Char) : fromSlash (cs ++ rest) =
    if cs.contains '/' then fromSlash cs ++ rest else fromSlash rest := by
  unfold fromSlash
  rw [List.dropWhile_append]
  by_cases h : '/' ∈ cs
  · have hne : cs.dropWhile (· != '/') ≠ [] := by
      rw [Ne, List.dropWhile_eq_nil_iff]
      intro hall
      simpa using hall '/' h
    simp [h, hne]
  · simp [h, dropWhile_slash h]

theorem exists_fromSlash (cs : List Char) : ∃ rest, fromSlash cs = '/' :: rest := by
  by_cases h : '/' ∈ cs
  · obtain ⟨before, after, rfl, hbefore⟩ := List.eq_append_cons_of_mem h
    rw [fromSlash_append, if_neg (by simpa using hbefore)]
    exact ⟨after, rfl⟩
  · exact ⟨[], fromSlash_of_not_mem h⟩

theorem fromSlash_suffix (cs : List Char) : fromSlash cs <:+ cs ∨ fromSlash cs = ['/'] := by
  by_cases h : '/' ∈ cs
  · left
    unfold fromSlash
    rw [if_pos (List.contains_iff_mem.mpr h)]
    exact List.dropWhile_suffix _
  · exact .inr (fromSlash_of_not_mem h)

theorem beginsPlain_fromSlash (cs : List Char) : BeginsPlain (fromSlash cs) := by
  obtain ⟨rest, hrest⟩ := exists_fromSlash cs
  rw [hrest]
  intro c hc
  obtain rfl := Option.some.inj hc
  decide

theorem endsPlain_fromSlash {cs : List Char} (h : EndsPlain cs) : EndsPlain (fromSlash cs) := by
  rcases fromSlash_suffix cs with ⟨before, hbefore⟩ | hroot
  · obtain ⟨rest, hrest⟩ := exists_fromSlash cs
    intro c hc
    apply h c
    rw [← hbefore, List.getLast?_append_of_ne_nil _ (by simp [hrest])]
    exact hc
  · rw [hroot]
    decide

theorem Unmarked.fromSlash {cs : List Char} (h : Unmarked cs) : Unmarked (fromSlash cs) := by
  rcases fromSlash_suffix cs with hsuffix | hroot
  · exact h.suffix hsuffix
  · rw [hroot]
    exact ⟨by decide, by decide⟩

/-- An address with a host and no path after it. -/
def hostOnly (address : List Char) : Bool :=
  (afterScheme? address).any (fun rest => !rest.contains '/')

/-- The part of an address in which its path is looked for. -/
def located (address : List Char) : List Char := (afterScheme? address).elim address fromSlash

/-- What is appended goes to the path, if there is one, and is searched for one otherwise. -/
theorem located_append (u : List Char) {mark : Char} (hmark : EndsPath mark) (q : List Char) :
    located (u ++ mark :: q) = if hostOnly u then fromSlash q else located u ++ mark :: q := by
  have hslash : fromSlash (mark :: q) = fromSlash q := by
    rcases hmark with rfl | rfl <;> exact fromSlash_append [_] q
  unfold located hostOnly
  rw [afterScheme?_append u hmark]
  cases afterScheme? u with
  | none => rfl
  | some rest =>
      rw [Option.map_some, Option.elim_some, fromSlash_append, hslash, Option.any_some,
        Option.elim_some]
      cases rest.contains '/' <;> rfl

theorem located_fromSlash (cs : List Char) : located (fromSlash cs) = fromSlash cs := by
  obtain ⟨rest, hrest⟩ := exists_fromSlash cs
  rw [hrest]
  rfl

theorem located_of_hostOnly {u : List Char} (h : hostOnly u = true) : located u = ['/'] := by
  unfold hostOnly at h
  unfold located
  cases hscheme : afterScheme? u with
  | none => simp [hscheme] at h
  | some rest =>
      rw [hscheme] at h
      exact fromSlash_of_not_mem (by simpa using h)

theorem Unmarked.located {u : List Char} (h : Unmarked u) : Unmarked (located u) := by
  unfold Url.located
  cases hscheme : afterScheme? u with
  | none => exact h
  | some rest => exact (h.suffix (afterScheme?_suffix hscheme)).fromSlash

/-! ## Both paths of an address -/

theorem dropWhile_eq_fromSlash {cs : List Char} (h : '/' ∈ cs) :
    ∃ rest, cs.dropWhile (· != '/') = '/' :: rest ∧ fromSlash cs = '/' :: rest := by
  obtain ⟨rest, hrest⟩ := exists_fromSlash cs
  exact ⟨rest, by simpa [fromSlash, h] using hrest, hrest⟩

/-- A host alone has the path of the root, which is empty where paths are compared. -/
theorem path_eq {u : List Char} (hbegin : BeginsPlain u) (hend : EndsPlain u) :
    path u = tidyPath (located u) := by
  unfold path located
  dsimp only
  rw [trim_eq_self hbegin hend]
  cases afterScheme? u with
  | none => rfl
  | some rest =>
      dsimp only [Option.elim_some]
      by_cases h : '/' ∈ rest
      · obtain ⟨after, hdrop, hfrom⟩ := dropWhile_eq_fromSlash h
        rw [hdrop, hfrom]
      · rw [dropWhile_slash h, fromSlash_of_not_mem h]
        decide

theorem identifyingPath_eq (mark u : List Char) : identifyingPath mark u =
    substitute (literally dynamicToken mark) (withoutQuery (located u)) := by
  unfold identifyingPath located
  dsimp only
  cases afterScheme? u with
  | none => rfl
  | some rest =>
      dsimp only [Option.elim_some]
      by_cases h : '/' ∈ rest
      · obtain ⟨after, hdrop, hfrom⟩ := dropWhile_eq_fromSlash h
        rw [hdrop, hfrom]
      · rw [dropWhile_slash h, fromSlash_of_not_mem h]

/-- The path of an address that the identifier of a call keeps. -/
def keptPath (address : List Char) : String := Identifier.callPath (String.ofList address)

theorem keptPath_eq (u : List Char) : keptPath u = String.ofList (Identifier.abstractPath
    (substitute (literally dynamicToken Identifier.variableMark) (withoutQuery (located u)))) := by
  unfold keptPath Identifier.callPath onChars
  beta_reduce
  rw [String.toList_ofList, identifyingPath_eq]

/-- Two addresses have the same comparable path and the same path in identifiers. -/
def SamePaths (v w : List Char) : Prop := path v = path w ∧ keptPath v = keptPath w

theorem samePaths_of_located {v w : List Char} (hv : BeginsPlain v ∧ EndsPlain v)
    (hw : BeginsPlain w ∧ EndsPlain w)
    (hlocated : withoutQuery (located v) = withoutQuery (located w)) : SamePaths v w := by
  constructor
  · rw [path_eq hv.1 hv.2, path_eq hw.1 hw.2]
    unfold tidyPath
    rw [hlocated]
  · rw [keptPath_eq, keptPath_eq, hlocated]

section Queries

variable {u q : List Char} {mark : Char}

theorem plain_append (hmark : EndsPath mark) (hbegin : BeginsPlain u) (hq : EndsPlain q) :
    BeginsPlain (u ++ mark :: q) ∧ EndsPlain (u ++ mark :: q) := by
  have hblank : isBlank mark = false := by rcases hmark with rfl | rfl <;> decide
  constructor
  · refine hbegin.append fun c hc => ?_
    rwa [← Option.some.inj hc]
  · exact EndsPlain.append u (List.cons_ne_nil _ _) (hq.cons hblank)

/-- Behind a path, a query makes no difference. -/
theorem samePaths_append (hmark : EndsPath mark) (hu : Unmarked u) (hbegin : BeginsPlain u)
    (hend : EndsPlain u) (hq : EndsPlain q) (hpath : hostOnly u = false) :
    SamePaths (u ++ mark :: q) u := by
  refine samePaths_of_located (plain_append hmark hbegin hq) ⟨hbegin, hend⟩ ?_
  rw [located_append u hmark, hpath, if_neg Bool.false_ne_true,
    withoutQuery_append hu.located hmark]

/-- Behind a host without a path, a query is read as an address of its own. -/
theorem samePaths_fromSlash (hmark : EndsPath mark) (hbegin : BeginsPlain u) (hq : EndsPlain q)
    (hhost : hostOnly u = true) : SamePaths (u ++ mark :: q) (fromSlash q) := by
  refine samePaths_of_located (plain_append hmark hbegin hq)
    ⟨beginsPlain_fromSlash q, endsPlain_fromSlash hq⟩ ?_
  rw [located_append u hmark, hhost, if_pos rfl, located_fromSlash]

theorem samePaths_root (hbegin : BeginsPlain u) (hend : EndsPlain u) (hhost : hostOnly u = true) :
    SamePaths u ['/'] := by
  have hnone : EndsPlain [] := by decide
  have hroot : fromSlash [] = ['/'] := fromSlash_of_not_mem List.not_mem_nil
  rw [← hroot]
  refine samePaths_of_located ⟨hbegin, hend⟩
    ⟨beginsPlain_fromSlash [], endsPlain_fromSlash hnone⟩ ?_
  rw [located_of_hostOnly hhost, located_fromSlash, hroot]

end Queries

theorem SamePaths.symm {v w : List Char} (h : SamePaths v w) : SamePaths w v := ⟨h.1.symm, h.2.symm⟩

theorem SamePaths.trans {v w x : List Char} (h : SamePaths v w) (h' : SamePaths w x) :
    SamePaths v x :=
  ⟨h.1.trans h'.1, h.2.trans h'.2⟩

/-- **A query is ignored unless it follows a host without a path.** There the address has the paths
that the query has from its first slash on, and the query is ignored just if these are the ones of
the root. So what follows a mark never makes a difference to an address just if the address is not a
host alone. -/
theorem query_ignored_iff (u : List Char) (hu : Unmarked u) (hbegin : BeginsPlain u)
    (hend : EndsPlain u) :
    (∀ q mark, EndsPlain q → EndsPath mark → hostOnly u = true →
      SamePaths (u ++ mark :: q) (fromSlash q) ∧
      (SamePaths (u ++ mark :: q) u ↔ SamePaths (fromSlash q) ['/'])) ∧
    ((∀ q, EndsPlain q → SamePaths (u ++ '?' :: q) u ∧ SamePaths (u ++ '#' :: q) u) ↔
      hostOnly u = false) := by
  have hhosts : ∀ q mark, EndsPlain q → EndsPath mark → hostOnly u = true →
      SamePaths (u ++ mark :: q) (fromSlash q) ∧
      (SamePaths (u ++ mark :: q) u ↔ SamePaths (fromSlash q) ['/']) := by
    intro q mark hq hmark hhost
    have hread := samePaths_fromSlash hmark hbegin hq hhost
    have hroot := samePaths_root hbegin hend hhost
    exact ⟨hread, fun hsame => hread.symm.trans (hsame.trans hroot),
      fun hstray => hread.trans (hstray.trans hroot.symm)⟩
  refine ⟨hhosts, ?_, ?_⟩
  · intro hall
    rw [Bool.eq_false_iff]
    intro hhost
    -- Any query with a path of its own shows the difference.
    have hplain : EndsPlain ['/', 'a'] := by decide
    have hsame := (hhosts _ '?' hplain (.inl rfl) hhost).2.mp (hall _ hplain).1
    have hdiffers : path (fromSlash ['/', 'a']) ≠ path ['/'] := by decide
    exact hdiffers hsame.1
  · intro hpath q hq
    exact ⟨samePaths_append (.inl rfl) hu hbegin hend hq hpath,
      samePaths_append (.inr rfl) hu hbegin hend hq hpath⟩

/-- A host, and a path of it. -/
def billingHost : List Char := "http://billing".toList

def billingOrders : List Char := "http://billing/orders".toList

theorem query_ignored_billing :
    (Unmarked billingOrders ∧ BeginsPlain billingOrders ∧ EndsPlain billingOrders ∧
      ∀ q, EndsPlain q → SamePaths (billingOrders ++ '?' :: q) billingOrders ∧
        SamePaths (billingOrders ++ '#' :: q) billingOrders) ∧
    Unmarked billingHost ∧ BeginsPlain billingHost ∧ EndsPlain billingHost ∧
      ∀ q, EndsPlain q → SamePaths (billingHost ++ '?' :: q) (fromSlash q) := by
  have horders : Unmarked billingOrders := ⟨by decide, by decide⟩
  have hhost : Unmarked billingHost := ⟨by decide, by decide⟩
  refine ⟨⟨horders, by decide, by decide, ?_⟩, hhost, by decide, by decide, ?_⟩
  · exact (query_ignored_iff billingOrders horders (by decide) (by decide)).2.mpr (by decide)
  · intro q hq
    exact ((query_ignored_iff billingHost hhost (by decide) (by decide)).1 q '?' hq (.inl rfl)
      (by decide)).1

/-- The path to go on to is taken for the path that is called. -/
theorem query_of_host_read_as_path :
    Unmarked billingHost ∧ BeginsPlain billingHost ∧ EndsPlain billingHost ∧
    EndsPlain "next=/orders".toList ∧
    path billingHost = [] ∧ path (billingHost ++ '?' :: "next=/orders".toList) = "/orders".toList ∧
    Identifier.callPath "http://billing" = "/" ∧
    Identifier.callPath "http://billing?next=/orders" = "/orders" := by
  refine ⟨⟨by decide, by decide⟩, by decide, by decide, by decide, by decide, by decide, by decide,
    by decide⟩

end Url

end ArchGraph
