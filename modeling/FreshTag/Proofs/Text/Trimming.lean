/-
FreshTag/Proofs/Text/Trimming.lean

Trimming a text and cutting it at a separator.  A separator that is no space
stops both trims, and cutting at it leaves the texts that were joined by it
(`pieces_intercalate`).  So it does not matter whether a text is trimmed before
it is cut, as long as its pieces are trimmed afterwards (`map_pieces_trimChars`).
What a trim leaves of a text that is not blank is `Tidy`.
-/
import FreshTag.Text.Pieces
import FreshTag.Text.Space
import Mathlib.Data.List.Basic

namespace FreshTag.Text

/-! ### Trimming -/

theorem trimStart_append_cons {c : Char} (hc : isSpace c = false) (a b : List Char) :
    trimStart (a ++ c :: b) = trimStart a ++ c :: b := by
  induction a with
  | nil => simp [trimStart, hc]
  | cons d a ih =>
    by_cases hd : isSpace d = true
    · simpa [trimStart, hd] using ih
    · simp [trimStart, hd]

theorem trimEnd_append_cons {c : Char} (hc : isSpace c = false) (a b : List Char) :
    trimEnd (a ++ c :: b) = a ++ c :: trimEnd b := by
  unfold trimEnd
  rw [List.reverse_append, List.reverse_cons, List.append_assoc, List.singleton_append,
    trimStart_append_cons hc]
  simp

theorem trimStart_of_forall {cs : List Char} (h : ∀ c ∈ cs, isSpace c = false) :
    trimStart cs = cs := by
  cases cs with
  | nil => rfl
  | cons c cs => simp [trimStart, h c (by simp)]

theorem trimEnd_of_forall {cs : List Char} (h : ∀ c ∈ cs, isSpace c = false) :
    trimEnd cs = cs := by
  unfold trimEnd
  rw [trimStart_of_forall (by simpa using h), List.reverse_reverse]

theorem trimChars_of_forall {cs : List Char} (h : ∀ c ∈ cs, isSpace c = false) :
    trimChars cs = cs := by
  unfold trimChars
  rw [trimStart_of_forall h, trimEnd_of_forall h]

/-- Spaces in front do not count. -/
theorem trimStart_append {space : List Char} (h : ∀ c ∈ space, isSpace c = true)
    (cs : List Char) : trimStart (space ++ cs) = trimStart cs :=
  List.dropWhile_append_of_pos h

theorem trimStart_of_space {space : List Char} (h : ∀ c ∈ space, isSpace c = true) :
    trimStart space = [] := by
  have happend := trimStart_append h []
  rwa [List.append_nil] at happend

/-- Spaces behind do not count. -/
theorem trimEnd_append {space : List Char} (h : ∀ c ∈ space, isSpace c = true) (cs : List Char) :
    trimEnd (cs ++ space) = trimEnd cs := by
  unfold trimEnd
  rw [List.reverse_append, trimStart_append (by simpa using h)]

theorem trimEnd_of_space {space : List Char} (h : ∀ c ∈ space, isSpace c = true) :
    trimEnd space = [] :=
  trimEnd_append h []

/-- A text is blank, or there is a first character in it that is no space. -/
theorem blank_or_exists_cons (cs : List Char) :
    (∀ c ∈ cs, isSpace c = true) ∨ ∃ space c rest, (∀ s ∈ space, isSpace s = true) ∧
      isSpace c = false ∧ cs = space ++ c :: rest := by
  induction cs with
  | nil => exact .inl (by simp)
  | cons d ds ih =>
    rcases hd : isSpace d with - | -
    · exact .inr ⟨[], d, ds, by simp, hd, rfl⟩
    · rcases ih with hblank | ⟨space, c, rest, hspace, hc, rfl⟩
      · exact .inl (List.forall_mem_cons.mpr ⟨hd, hblank⟩)
      · exact .inr ⟨d :: space, c, rest, List.forall_mem_cons.mpr ⟨hd, hspace⟩, hc, rfl⟩

/-- Trimming in front has no effect on a text that is trimmed afterwards. -/
theorem trimChars_trimStart (cs : List Char) : trimChars (trimStart cs) = trimChars cs := by
  unfold trimChars
  rcases blank_or_exists_cons cs with hblank | ⟨space, c, rest, hspace, hc, rfl⟩
  · rw [trimStart_of_space hblank]
    rfl
  · rw [trimStart_append hspace, ← List.nil_append (c :: rest), trimStart_append_cons hc]
    exact congrArg trimEnd (trimStart_append_cons hc [] rest)

/-- Nor does trimming behind. -/
theorem trimChars_trimEnd (cs : List Char) : trimChars (trimEnd cs) = trimChars cs := by
  unfold trimChars
  rcases blank_or_exists_cons cs with hblank | ⟨space, c, rest, hspace, hc, rfl⟩
  · rw [trimEnd_of_space hblank, trimStart_of_space hblank]
    rfl
  · have htwice : trimEnd (trimEnd rest) = trimEnd rest := by
      unfold trimEnd
      rw [List.reverse_reverse]
      rcases blank_or_exists_cons rest.reverse with hblank | ⟨sp, d, ds, hsp, hd, hrest⟩
      · rw [trimStart_of_space hblank]
        rfl
      · rw [hrest, trimStart_append hsp, ← List.nil_append (d :: ds), trimStart_append_cons hd]
        exact congrArg List.reverse (trimStart_append_cons hd [] ds)
    have hstart : ∀ ds, trimStart (space ++ c :: ds) = [] ++ c :: ds := fun ds =>
      (trimStart_append hspace _).trans (trimStart_append_cons hc [] ds)
    rw [trimEnd_append_cons hc, hstart, hstart, trimEnd_append_cons hc, trimEnd_append_cons hc,
      htwice]

theorem trimChars_trimChars (cs : List Char) : trimChars (trimChars cs) = trimChars cs :=
  (trimChars_trimEnd _).trans (trimChars_trimStart cs)

/-- A text between spaces is trimmed to itself. -/
theorem trimChars_between {before cs after : List Char} (hbefore : ∀ c ∈ before, isSpace c = true)
    (hafter : ∀ c ∈ after, isSpace c = true) (h : ∀ c ∈ cs, isSpace c = false) :
    trimChars (before ++ (cs ++ after)) = cs := by
  rw [← trimChars_trimStart, trimStart_append hbefore, trimChars_trimStart, ← trimChars_trimEnd,
    trimEnd_append hafter, trimChars_trimEnd, trimChars_of_forall h]

theorem trimChars_of_space {space : List Char} (h : ∀ c ∈ space, isSpace c = true) :
    trimChars space = [] := by
  rw [← trimChars_trimStart, trimStart_of_space h]
  rfl

theorem trimStart_eq_self_iff {cs : List Char} :
    trimStart cs = cs ↔ ∀ c, cs.head? = some c → isSpace c = false := by
  constructor
  · intro h c hc
    rw [← h] at hc
    exact head?_trimStart hc
  · rcases cs with - | ⟨c, cs⟩
    · exact fun _ => rfl
    · intro h
      exact trimStart_append_cons (h c rfl) [] cs

theorem trimEnd_eq_self_iff {cs : List Char} :
    trimEnd cs = cs ↔ ∀ c, cs.getLast? = some c → isSpace c = false := by
  unfold trimEnd
  rw [List.reverse_eq_iff, trimStart_eq_self_iff, List.head?_reverse]

theorem trimStart_sublist (cs : List Char) : (trimStart cs).Sublist cs :=
  (List.dropWhile_suffix _).sublist

theorem trimEnd_sublist (cs : List Char) : (trimEnd cs).Sublist cs := by
  rw [← List.reverse_sublist, trimEnd, List.reverse_reverse]
  exact trimStart_sublist _

theorem trimChars_sublist (cs : List Char) : (trimChars cs).Sublist cs :=
  (trimEnd_sublist _).trans (trimStart_sublist _)

/-- Trimming has no effect exactly if there is no space around the text. -/
theorem trimChars_eq_self_iff {cs : List Char} :
    trimChars cs = cs ↔ (∀ c, cs.head? = some c → isSpace c = false) ∧
      ∀ c, cs.getLast? = some c → isSpace c = false := by
  rw [← trimStart_eq_self_iff, ← trimEnd_eq_self_iff]
  constructor
  · intro h
    -- the two trims together drop nothing, so the first one drops nothing
    have hstart : trimStart cs = cs := by
      have hlength := (trimEnd_sublist (trimStart cs)).length_le
      rw [show trimEnd (trimStart cs) = cs from h] at hlength
      exact (trimStart_sublist cs).eq_of_length_le hlength
    refine ⟨hstart, ?_⟩
    have hend : trimEnd (trimStart cs) = cs := h
    rwa [hstart] at hend
  · rintro ⟨hstart, hend⟩
    rw [trimChars, hstart, hend]

/-- A text that is not blank and has no space around it. -/
structure Tidy (s : String) : Prop where
  nonempty : s ≠ ""
  first : ∀ c, s.toList.head? = some c → isSpace c = false
  last : ∀ c, s.toList.getLast? = some c → isSpace c = false

theorem tidy_trim {s : String} (h : trim s ≠ "") : Tidy (trim s) where
  nonempty := h
  first := by
    rw [trim, String.toList_ofList]
    rcases blank_or_exists_cons s.toList with hblank | ⟨space, c, rest, hspace, hc, hs⟩
    · rw [trimChars_of_space hblank]
      exact nofun
    · rw [trimChars, hs, trimStart_append hspace, ← List.nil_append (c :: rest),
        trimStart_append_cons hc, trimEnd_append_cons hc]
      rintro d ⟨⟩
      exact hc
  last := by
    rw [trim, String.toList_ofList, trimChars, trimEnd, List.getLast?_reverse]
    exact fun c => head?_trimStart

/-- A text that is given, unless it is blank. -/
theorem tidy_of_bind {s? : Option String} {t : String} (h : s?.bind nonBlank? = some t) : Tidy t := by
  obtain ⟨s, -, hs⟩ := Option.bind_eq_some_iff.mp h
  unfold nonBlank? at hs
  split at hs
  · cases hs
  · cases hs
    exact tidy_trim ‹_›

theorem nonBlank?_of_blank {s : String} (h : trim s = "") : nonBlank? s = none :=
  if_pos h

theorem nonBlank?_of_ne {s : String} (h : trim s ≠ "") : nonBlank? s = some (trim s) :=
  if_neg h

/-! ### Cutting -/

theorem pieces_append_cons (sep : Char) (a b : List Char) :
    pieces sep (a ++ sep :: b) = pieces sep a ++ pieces sep b := by
  induction a with
  | nil => simp [pieces]
  | cons c a ih =>
    rw [List.cons_append]
    simp only [pieces]
    by_cases hc : c = sep
    · simp [hc, ih]
    · obtain ⟨p, ps, hp⟩ := List.exists_cons_of_ne_nil (pieces_ne_nil sep a)
      simp [hc, ih, hp]

theorem sep_not_mem_of_mem_pieces {sep : Char} {cs piece : List Char}
    (h : piece ∈ pieces sep cs) : sep ∉ piece := by
  induction cs generalizing piece with
  | nil =>
    rw [pieces, List.mem_singleton] at h
    rw [h]
    exact List.not_mem_nil
  | cons c cs ih =>
    obtain ⟨p, ps, hp⟩ := List.exists_cons_of_ne_nil (pieces_ne_nil sep cs)
    rw [hp] at ih
    rw [pieces, hp] at h
    split at h
    · rcases List.mem_cons.mp h with rfl | h
      exacts [List.not_mem_nil, ih h]
    · next hc =>
      rcases List.mem_cons.mp h with rfl | h
      · rw [List.mem_cons, not_or]
        exact ⟨Ne.symm hc, ih List.mem_cons_self⟩
      · exact ih (List.mem_cons_of_mem p h)

/-- A text that is one piece is that piece. -/
theorem eq_of_pieces_eq {sep : Char} {cs piece : List Char} (h : pieces sep cs = [piece]) :
    piece = cs := by
  have hjoined := intercalate_pieces sep cs
  rw [h] at hjoined
  simpa [List.intercalate] using hjoined

/-- A text without separator is one piece. -/
theorem pieces_of_not_mem {sep : Char} {cs : List Char} (h : sep ∉ cs) :
    pieces sep cs = [cs] := by
  have hlength := length_pieces sep cs
  rw [List.count_eq_zero_of_not_mem h] at hlength
  obtain ⟨piece, hpiece⟩ := List.length_eq_one_iff.mp hlength
  rw [hpiece, eq_of_pieces_eq hpiece]

/-- Cutting at the separator undoes joining with it. -/
theorem pieces_intercalate {sep : Char} {texts : List (List Char)} (hne : texts ≠ [])
    (h : ∀ t ∈ texts, sep ∉ t) : pieces sep (List.intercalate [sep] texts) = texts := by
  induction texts with
  | nil => exact absurd rfl hne
  | cons t texts ih =>
    obtain ⟨ht, htexts⟩ := List.forall_mem_cons.mp h
    rcases texts with - | ⟨u, texts⟩
    · rw [List.intercalate_singleton, pieces_of_not_mem ht]
    · rw [List.intercalate_cons_cons, List.append_assoc, List.singleton_append,
        pieces_append_cons, pieces_of_not_mem ht, ih (by simp) htexts]
      rfl

/-- A trim that a separator stops, and that has no effect on a later trim, has none on the trimmed
pieces of a text without separators. -/
theorem map_pieces_of_not_mem {sep : Char} {cs cs' : List Char} (h : sep ∉ cs) (hsub : cs' ⊆ cs)
    (htrim : trimChars cs' = trimChars cs) :
    (pieces sep cs').map trimChars = (pieces sep cs).map trimChars := by
  rw [pieces_of_not_mem h, pieces_of_not_mem fun hmem => h (hsub hmem), List.map_singleton,
    List.map_singleton, htrim]

theorem map_pieces_trimStart {sep : Char} (hsep : isSpace sep = false) (cs : List Char) :
    (pieces sep (trimStart cs)).map trimChars = (pieces sep cs).map trimChars := by
  have hone : ∀ a, sep ∉ a →
      (pieces sep (trimStart a)).map trimChars = (pieces sep a).map trimChars := fun a ha =>
    map_pieces_of_not_mem ha (List.dropWhile_suffix _).subset (trimChars_trimStart a)
  by_cases h : sep ∈ cs
  · -- only the first piece is trimmed
    obtain ⟨a, b, rfl, ha⟩ := List.eq_append_cons_of_mem h
    rw [trimStart_append_cons hsep, pieces_append_cons, pieces_append_cons, List.map_append,
      List.map_append, hone a ha]
  · exact hone cs h

theorem map_pieces_trimEnd {sep : Char} (hsep : isSpace sep = false) (cs : List Char) :
    (pieces sep (trimEnd cs)).map trimChars = (pieces sep cs).map trimChars := by
  -- on the pieces: all but the last one stay, and the trim goes on behind them
  induction hn : cs.length using Nat.strongRecOn generalizing cs with
  | ind n ih =>
    by_cases h : sep ∈ cs
    · obtain ⟨a, b, rfl, -⟩ := List.eq_append_cons_of_mem h
      have hshorter : b.length < n := by
        rw [← hn, List.length_append, List.length_cons]
        omega
      rw [trimEnd_append_cons hsep, pieces_append_cons, pieces_append_cons, List.map_append,
        List.map_append, ih b.length hshorter b rfl]
    · exact map_pieces_of_not_mem h (trimEnd_sublist cs).subset (trimChars_trimEnd cs)

/-- The trimmed pieces of a text are those of the trimmed text. -/
theorem map_pieces_trimChars {sep : Char} (hsep : isSpace sep = false) (cs : List Char) :
    (pieces sep (trimChars cs)).map trimChars = (pieces sep cs).map trimChars :=
  (map_pieces_trimEnd hsep _).trans (map_pieces_trimStart hsep cs)

/-! ### Which characters are spaces -/

/-- The printed characters of ASCII are no spaces. -/
theorem isSpace_of_printed {c : Char} (hlow : 0x21 ≤ c.toNat) (hhigh : c.toNat ≤ 0x7E) :
    isSpace c = false := by
  simp [isSpace]
  omega

theorem isSpace_of_isAlphanum {c : Char} (h : c.isAlphanum = true) : isSpace c = false := by
  delta Char.isAlphanum Char.isAlpha Char.isUpper Char.isLower Char.isDigit at h
  simp only [Bool.or_eq_true, Bool.and_eq_true, decide_eq_true_eq, UInt32.le_iff_toNat_le] at h
  rcases h with (⟨h₁, h₂⟩ | ⟨h₁, h₂⟩) | ⟨h₁, h₂⟩
  all_goals exact isSpace_of_printed (Nat.le_trans (by decide) h₁) (Nat.le_trans h₂ (by decide))

end FreshTag.Text
