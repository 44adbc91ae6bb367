/-
FreshTag/Proofs/Etag/Printed.lean

Which etag a stored text is of.  A string that was printed is read back, and
what follows it is left over (`readText_escaped`); hence a printed string tells
where it ends, and two weak etags of the same text have the same
identity and the same version (`WeakEtag.keys_of_text_eq`).
-/
import FreshTag.Etag.Text

namespace FreshTag

namespace Json

/-- The two digits of a control character are read back. -/
theorem hex₄?_control {n : Nat} (h : n < 0x20) :
    hex₄? '0' '0' (Text.hexDigit (n / 16)) (Text.hexDigit (n % 16)) = some n := by
  have all : ∀ n < 0x20,
      hex₄? '0' '0' (Text.hexDigit (n / 16)) (Text.hexDigit (n % 16)) = some n := by decide
  exact all n h

/-- A short escape is the character that it stands for. -/
theorem readText_short {e x : Char} (hx : shortEscape? e = some x) (he : e ≠ 'u')
    (cs : List Char) : readText ('\\' :: e :: cs) = withChar x (readText cs) := by
  rw [readText.eq_def]
  simp [hx, he]

/-- An escaped character is read back. -/
theorem readText_escapeChar (c : Char) (cs : List Char) :
    readText (escapeChar c ++ cs) = withChar c (readText cs) := by
  unfold escapeChar
  -- seven characters have a short escape
  iterate 7
    split
    · next h =>
      subst h
      exact readText_short rfl (by decide) cs
  split
  · next hcontrol =>
    have hlead : isLead c.toNat = false := by simp [isLead]; omega
    have htrail : isTrail c.toNat = false := by simp [isTrail]; omega
    show readText ('\\' :: 'u' :: '0' :: '0' :: Text.hexDigit (c.toNat / 16) ::
      Text.hexDigit (c.toNat % 16) :: cs) = _
    rw [readText.eq_def]
    simp [hex₄?_control hcontrol, hlead, htrail]
  · next hquote hback _ _ _ _ _ hcontrol =>
    show readText (c :: cs) = _
    rw [readText.eq_def]
    simp [hquote, hback, hcontrol]

/-- The characters of a printed string are read back. -/
theorem readText_escaped (cs rest : List Char) :
    readText (cs.flatMap escapeChar ++ '"' :: rest) = .ok (cs, rest) := by
  induction cs with
  | nil => exact readText.eq_def _
  | cons c cs ih =>
    rw [List.flatMap_cons, List.append_assoc, readText_escapeChar, ih]
    rfl

/-- A printed string tells where it ends. -/
theorem printString_append_inj {s t : String} {a b : List Char}
    (h : printString s ++ a = printString t ++ b) : s = t ∧ a = b := by
  have htail : s.toList.flatMap escapeChar ++ '"' :: a =
      t.toList.flatMap escapeChar ++ '"' :: b := by
    simpa [printString, printText] using h
  have hread := readText_escaped s.toList a
  rw [htail, readText_escaped t.toList b] at hread
  simp only [Except.ok.injEq, Prod.mk.injEq, String.toList_inj] at hread
  exact ⟨hread.1.symm, hread.2.symm⟩

/-- So does a printed member with a known key. -/
theorem printMember_append_inj {key s t : String} {a b : List Char}
    (h : printMember key (printString s) ++ a = printMember key (printString t) ++ b) :
    s = t ∧ a = b := by
  simp only [printMember, List.append_assoc, List.cons_append, List.append_cancel_left_eq,
    List.cons.injEq, true_and] at h
  exact printString_append_inj h

end Json

namespace WeakEtag

open Json (printMember printString)

/-- The text of an etag begins with its collection, its feature id and its version. -/
theorem exists_toList_text (e : WeakEtag) : ∃ rest, e.text.toList =
    '{' :: (printMember "collection" (printString e.collection) ++
      ',' :: (printMember "feature_id" (printString e.featureId) ++
        ',' :: (printMember "version" (printString e.version) ++ ',' :: rest))) := by
  have hparts : ∀ (a b c d : List Char) (more : List (List Char)),
      Json.braced ([a, b, c, d] ++ more) = '{' :: (a ++ ',' :: (b ++ ',' :: (c ++ ',' ::
        (Json.commaSeparated (d :: more) ++ ['}'])))) := by
    intro a b c d more
    simp [Json.braced, Json.commaSeparated]
  exact ⟨_, by rw [text, String.toList_ofList, print, hparts]⟩

/-- Etags with one text have the same collection, feature id and version. -/
theorem keys_of_text_eq {e f : WeakEtag} (h : e.text = f.text) :
    e.identity = f.identity ∧ e.version = f.version := by
  obtain ⟨restₑ, hₑ⟩ := e.exists_toList_text
  obtain ⟨restf, hf⟩ := f.exists_toList_text
  rw [h, hf] at hₑ
  obtain ⟨hcollection, htail⟩ := Json.printMember_append_inj (List.cons.inj hₑ).2
  obtain ⟨hid, htail⟩ := Json.printMember_append_inj (List.cons.inj htail).2
  obtain ⟨hversion, -⟩ := Json.printMember_append_inj (List.cons.inj htail).2
  exact ⟨by simp [identity, hcollection, hid, hversion], hversion.symm⟩

end WeakEtag

end FreshTag
