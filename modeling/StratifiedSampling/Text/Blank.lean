/-! Blank characters, those with the Unicode property White_Space, and trimming a
text of them. Trimming twice changes nothing, so a trimmed text stays trimmed. -/

namespace StratifiedSampling.Text

def isBlank (char : Char) : Bool :=
  let code := char.toNat
  (0x09 ≤ code && code ≤ 0x0D) || code == 0x20 || code == 0x85 || code == 0xA0 || code == 0x1680 ||
    (0x2000 ≤ code && code ≤ 0x200A) || code == 0x2028 || code == 0x2029 || code == 0x202F ||
    code == 0x205F || code == 0x3000

def trimEnd (chars : List Char) : List Char :=
  (chars.reverse.dropWhile isBlank).reverse

def trimChars (chars : List Char) : List Char :=
  trimEnd (chars.dropWhile isBlank)

def trim (text : String) : String :=
  String.ofList (trimChars text.toList)

theorem dropWhile_dropWhile (test : α → Bool) (items : List α) :
    (items.dropWhile test).dropWhile test = items.dropWhile test := by
  induction items with
  | nil => rfl
  | cons item rest ih =>
    by_cases holds : test item
    · simpa [holds] using ih
    · simp [holds]

theorem trimEnd_trimEnd (chars : List Char) : trimEnd (trimEnd chars) = trimEnd chars := by
  simp [trimEnd, dropWhile_dropWhile]

/-- Trimming the end leaves the first character of a text that starts with none to trim. -/
theorem dropWhile_trimEnd (chars : List Char) (start : chars.dropWhile isBlank = chars) :
    (trimEnd chars).dropWhile isBlank = trimEnd chars := by
  cases chars with
  | nil => rfl
  | cons char rest =>
    have solid : isBlank char = false := by
      cases blank : isBlank char with
      | false => rfl
      | true =>
        have shorter := congrArg List.length start
        simp only [List.dropWhile_cons, blank, if_true] at shorter
        have := (List.dropWhile_sublist isBlank (l := rest)).length_le
        simp at shorter
        omega
    have kept : ∃ tail, trimEnd (char :: rest) = char :: tail := by
      unfold trimEnd
      rw [List.reverse_cons, List.dropWhile_append]
      split
      · exact ⟨[], by simp [solid]⟩
      · exact ⟨(rest.reverse.dropWhile isBlank).reverse, by simp⟩
    obtain ⟨tail, same⟩ := kept
    rw [same]
    simp [solid]

theorem trimChars_trimChars (chars : List Char) : trimChars (trimChars chars) = trimChars chars := by
  unfold trimChars
  rw [dropWhile_trimEnd _ (dropWhile_dropWhile _ _), trimEnd_trimEnd]

theorem trim_trim (text : String) : trim (trim text) = trim text := by
  simp [trim, trimChars_trimChars]

end StratifiedSampling.Text
