import StratifiedSampling.Sampling.Plan

/-! Names of staged relations. An area has a name for every suffix, because the name is
never blank, and suffixes with different last characters have different names. -/

namespace StratifiedSampling

namespace Text

private theorem mem_dropWhile_of_solid {chars : List Char} {char : Char} (member : char ∈ chars)
    (solid : isBlank char = false) : char ∈ chars.dropWhile isBlank := by
  induction chars with
  | nil => cases member
  | cons first rest ih =>
    rw [List.dropWhile_cons]
    split
    next blank =>
      rcases List.mem_cons.mp member with rfl | member
      · simp [solid] at blank
      · exact ih member
    next => exact member

theorem trim_ne_empty {text : String} {char : Char} (member : char ∈ text.toList)
    (solid : isBlank char = false) : trim text ≠ "" := by
  have kept : char ∈ trimChars text.toList := by
    unfold trimChars trimEnd
    have first := mem_dropWhile_of_solid member solid
    exact List.mem_reverse.mpr (mem_dropWhile_of_solid (List.mem_reverse.mpr first) solid)
  intro blank
  have nothing : trimChars text.toList = [] := by simpa [trim] using blank
  rw [nothing] at kept
  cases kept

theorem trimEnd_append_of_solid (chars : List Char) {char : Char} (solid : isBlank char = false) :
    trimEnd (chars ++ [char]) = chars ++ [char] := by
  simp [trimEnd, solid]

theorem getLast?_trimChars (chars : List Char) {char : Char} (solid : isBlank char = false) :
    (trimChars (chars ++ [char])).getLast? = some char := by
  induction chars with
  | nil => simp [trimChars, trimEnd, solid]
  | cons first rest ih =>
    unfold trimChars at ih ⊢
    by_cases blank : isBlank first
    · simpa [blank] using ih
    · rw [List.cons_append, List.dropWhile_cons, if_neg blank, ← List.cons_append,
        trimEnd_append_of_solid _ solid]
      exact List.getLast?_concat

end Text

namespace Staging

/-- The name under which an area of some prefix and token stages a relation. -/
def nameOf (stagingPrefix : String) (token : Token) (suffix : String) : RelationName where
  text := Text.trim (stagingPrefix ++ "_" ++ token ++ "_" ++ suffix)
  trimmed := Text.trim_trim _
  solid := by
    have member : '_' ∈ (stagingPrefix ++ "_" ++ token ++ "_" ++ suffix).toList := by simp
    exact Text.trim_ne_empty member (by decide)

theorem name_eq (area : Staging) (suffix : String) :
    area.name suffix = .ok (nameOf area.stagingPrefix area.token suffix) := by
  have solid := (nameOf area.stagingPrefix area.token suffix).solid
  have whole : Text.trim (area.stagingPrefix ++ "_" ++ area.token ++ "_" ++ suffix) ≠ "" := solid
  simp [name, RelationName.ofString, RelationName.ofString?, whole, nameOf]

theorem nameOf_ne {stagingPrefix : String} {token : Token} {first second : String}
    (firstEnd secondEnd : Char) (firstEnds : first.toList.getLast? = some firstEnd)
    (secondEnds : second.toList.getLast? = some secondEnd) (firstSolid : Text.isBlank firstEnd = false)
    (secondSolid : Text.isBlank secondEnd = false) (different : firstEnd ≠ secondEnd) :
    nameOf stagingPrefix token first ≠ nameOf stagingPrefix token second := by
  have last : ∀ (suffix : String) (char : Char), suffix.toList.getLast? = some char →
      Text.isBlank char = false →
      (nameOf stagingPrefix token suffix).text.toList.getLast? = some char := by
    intro suffix char ends solid
    obtain ⟨start, same⟩ := List.getLast?_eq_some_iff.mp ends
    simp only [nameOf, Text.trim, String.toList_append, String.toList_ofList, same, ← List.append_assoc]
    exact Text.getLast?_trimChars _ solid
  intro equal
  have ended := last first firstEnd firstEnds firstSolid
  rw [equal, last second secondEnd secondEnds secondSolid] at ended
  exact different (Option.some.inj ended).symm

theorem labeled_ne_thresholds (stagingPrefix : String) (token : Token) :
    nameOf stagingPrefix token "labeled" ≠ nameOf stagingPrefix token "thresholds" :=
  nameOf_ne 'd' 's' (by decide) (by decide) (by decide) (by decide) (by decide)

theorem ranked_ne_draws (stagingPrefix : String) (token : Token) :
    nameOf stagingPrefix token "ranked" ≠ nameOf stagingPrefix token "draws" :=
  nameOf_ne 'd' 's' (by decide) (by decide) (by decide) (by decide) (by decide)

end Staging

end StratifiedSampling
