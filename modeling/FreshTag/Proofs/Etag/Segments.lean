/-
FreshTag/Proofs/Etag/Segments.lean

Which version a strong etag names when it is read back.  The token of an etag
survives the dropping of spaces and quotes, with or without quotes around it,
and the text that it decodes to is the joined segments again.  If that text has
four segments at all, no segment holds a `-`, and the last one is the version,
less the quotes in it and the space behind it (`version_of_decode`).
-/
import FreshTag.Etag.Strong
import FreshTag.Proofs.Text.Trimming
import Mathlib.Tactic.MkIffOfInductiveProp

namespace FreshTag

namespace Text

/-- A digit stands apart from what surrounds a token: spaces, quotes and commas. -/
theorem digit_apart {n : Nat} (h : n < 64) :
    isSpace (Base64.digit n) = false ∧ Base64.digit n ≠ '"' ∧ Base64.digit n ≠ ',' := by
  have all : ∀ m ∈ List.range 64, isSpace (Base64.digit m) = false ∧ Base64.digit m ≠ '"' ∧
      Base64.digit m ≠ ',' := by decide
  exact all n (List.mem_range.mpr h)

/-- The characters of an encoding are digits and pads. -/
theorem mem_encode {c : Char} {bytes : List UInt8} (h : c ∈ Base64.encode bytes) :
    (∃ n, n < 64 ∧ c = Base64.digit n) ∨ c = '=' := by
  fun_induction Base64.encode bytes with
  | case1 => cases h
  | case2 a =>
    have ha := a.toNat_lt
    simp only [List.mem_cons, List.not_mem_nil, or_false] at h
    rcases h with rfl | rfl | rfl | rfl
    exacts [Or.inl ⟨_, by omega, rfl⟩, Or.inl ⟨_, by omega, rfl⟩, Or.inr rfl, Or.inr rfl]
  | case3 a b =>
    have ha := a.toNat_lt
    have hb := b.toNat_lt
    simp only [List.mem_cons, List.not_mem_nil, or_false] at h
    rcases h with rfl | rfl | rfl | rfl
    exacts [Or.inl ⟨_, by omega, rfl⟩, Or.inl ⟨_, by omega, rfl⟩, Or.inl ⟨_, by omega, rfl⟩,
      Or.inr rfl]
  | case4 a b c rest ih =>
    have ha := a.toNat_lt
    have hb := b.toNat_lt
    have hc := c.toNat_lt
    simp only [List.mem_cons] at h
    rcases h with rfl | rfl | rfl | rfl | hrest
    exacts [Or.inl ⟨_, by omega, rfl⟩, Or.inl ⟨_, by omega, rfl⟩, Or.inl ⟨_, by omega, rfl⟩,
      Or.inl ⟨_, by omega, rfl⟩, ih hrest]

end Text

namespace StrongEtag

open Text (pieces trimChars trimStart trimEnd)

/-! ### The token of an etag -/

theorem of_mem_token {e : StrongEtag} {c : Char} (h : c ∈ e.token.toList) :
    Text.isSpace c = false ∧ c ≠ '"' ∧ c ≠ ',' := by
  rw [token, String.toList_ofList] at h
  rcases Text.mem_encode h with ⟨n, hn, rfl⟩ | rfl
  · exact Text.digit_apart hn
  · decide

/-- Dropping quotes has no effect exactly if there are none. -/
theorem filter_quote_eq_self_iff {cs : List Char} : cs.filter (· ≠ '"') = cs ↔ '"' ∉ cs := by
  rw [List.filter_eq_self]
  constructor
  · exact fun h hquote => absurd rfl (of_decide_eq_true (h _ hquote))
  · intro hquote c hc
    rw [decide_eq_true_eq]
    rintro rfl
    exact hquote hc

theorem filter_token (e : StrongEtag) : e.token.toList.filter (· ≠ '"') = e.token.toList :=
  filter_quote_eq_self_iff.mpr fun hquote => (of_mem_token hquote).2.1 rfl

theorem stripQuotes_token (e : StrongEtag) : stripQuotes e.token = e.token := by
  unfold stripQuotes
  rw [Text.trimChars_of_forall fun c hc => (of_mem_token hc).1, filter_token]
  simp

theorem toList_headerValue (e : StrongEtag) :
    e.headerValue.toList = '"' :: (e.token.toList ++ ['"']) := by
  simp [headerValue, String.toList_append]

theorem stripQuotes_headerValue (e : StrongEtag) : stripQuotes e.headerValue = e.token := by
  have hspace : ∀ c ∈ e.headerValue.toList, Text.isSpace c = false := by
    intro c hc
    rw [toList_headerValue, List.mem_cons, List.mem_append, List.mem_singleton] at hc
    rcases hc with rfl | hc | rfl
    exacts [by decide, (of_mem_token hc).1, by decide]
  unfold stripQuotes
  rw [Text.trimChars_of_forall hspace, toList_headerValue]
  have hinner := filter_token e
  simp only [ne_eq, decide_not] at hinner
  simp [hinner]

theorem stripQuotes_candidate {e : StrongEtag} {candidate : String}
    (h : candidate = e.token ∨ candidate = e.headerValue) : stripQuotes candidate = e.token := by
  rcases h with rfl | rfl
  exacts [stripQuotes_token e, stripQuotes_headerValue e]

/-! ### Reading it back -/

/-- The token, quoted or not, decodes to the joined segments. -/
theorem decode_stripQuotes {e : StrongEtag} {candidate : String}
    (h : candidate = e.token ∨ candidate = e.headerValue) :
    Text.Base64.decode (stripQuotes candidate).toList = some (Text.Base64.utf8 e.joined) := by
  rw [stripQuotes_candidate h, token, String.toList_ofList, Text.Base64.decode_encode]

/-- What is read as an etag has its four segments. -/
theorem segments_of_decode {candidate : String} {d : StrongEtag} (h : decode candidate = .ok d) :
    ∃ bytes text, Text.Base64.decode (stripQuotes candidate).toList = some bytes ∧
      Text.Base64.ofUtf8? bytes = some text ∧
      Text.splitAt '-' (stripQuotes text) = [d.collection, d.srid, d.format, d.version] := by
  unfold decode at h
  split at h
  · cases h
  · next bytes hbytes =>
    split at h
    · cases h
    · next text htext =>
      simp only at h
      split at h
      · next collection srid format version hsegments =>
        split at h
        · cases h
        · cases h
          exact ⟨bytes, text, hbytes, htext, hsegments⟩
      · cases h

theorem toList_joined (e : StrongEtag) :
    e.joined.toList = e.collection.toList ++ '-' :: (e.srid.toList ++ '-' ::
      (e.format.toList ++ '-' :: e.version.toList)) := by
  simp [joined, String.toList_append]

/-- Without spaces and quotes, the joined segments are the stripped segments with `-` between
them. -/
theorem toList_stripQuotes_joined (e : StrongEtag) :
    (stripQuotes e.joined).toList =
      (trimStart e.collection.toList).filter (· ≠ '"') ++ '-' ::
        (e.srid.toList.filter (· ≠ '"') ++ '-' ::
          (e.format.toList.filter (· ≠ '"') ++ '-' ::
            (trimEnd e.version.toList).filter (· ≠ '"'))) := by
  have hspace : Text.isSpace '-' = false := by decide
  unfold stripQuotes trimChars
  rw [toList_joined, Text.trimStart_append_cons hspace, Text.trimEnd_append_cons hspace,
    Text.trimEnd_append_cons hspace, Text.trimEnd_append_cons hspace]
  simp

/-- An etag that is read from the token of another one, quoted or not, names the version of that
one, if the version has no quotes and does not end with space. -/
theorem version_of_decode {e d : StrongEtag} {candidate : String}
    (hcandidate : candidate = e.token ∨ candidate = e.headerValue)
    (hquote : '"' ∉ e.version.toList) (hend : trimEnd e.version.toList = e.version.toList)
    (h : decode candidate = .ok d) : d.version = e.version := by
  obtain ⟨bytes, text, hbytes, htext, hsegments⟩ := segments_of_decode h
  rw [decode_stripQuotes hcandidate] at hbytes
  cases hbytes
  rw [Text.Base64.ofUtf8?_utf8] at htext
  cases htext
  have hversion : (trimEnd e.version.toList).filter (· ≠ '"') = e.version.toList := by
    rw [hend, filter_quote_eq_self_iff]
    exact hquote
  unfold Text.splitAt at hsegments
  rw [toList_stripQuotes_joined, hversion, Text.pieces_append_cons, Text.pieces_append_cons,
    Text.pieces_append_cons] at hsegments
  -- four segments, and at least one from each text
  obtain ⟨c, cs, hc⟩ := List.exists_cons_of_ne_nil
    (Text.pieces_ne_nil '-' ((trimStart e.collection.toList).filter (· ≠ '"')))
  obtain ⟨s, ss, hs⟩ := List.exists_cons_of_ne_nil
    (Text.pieces_ne_nil '-' (e.srid.toList.filter (· ≠ '"')))
  obtain ⟨f, fs, hf⟩ := List.exists_cons_of_ne_nil
    (Text.pieces_ne_nil '-' (e.format.toList.filter (· ≠ '"')))
  obtain ⟨v, vs, hv⟩ := List.exists_cons_of_ne_nil (Text.pieces_ne_nil '-' e.version.toList)
  have hlength := congrArg List.length hsegments
  rw [hc, hs, hf, hv] at hlength hsegments
  simp only [List.map_append, List.map_cons, List.length_append, List.length_cons,
    List.length_map, List.length_nil] at hlength
  obtain rfl : cs = [] := List.eq_nil_of_length_eq_zero (by omega)
  obtain rfl : ss = [] := List.eq_nil_of_length_eq_zero (by omega)
  obtain rfl : fs = [] := List.eq_nil_of_length_eq_zero (by omega)
  obtain rfl : vs = [] := List.eq_nil_of_length_eq_zero (by omega)
  simp only [List.singleton_append, List.map_cons, List.map_nil, List.cons.injEq,
    and_true] at hsegments
  rw [← hsegments.2.2.2, Text.eq_of_pieces_eq hv]
  simp

/-- An etag whose joined segments are not four when they are cut again is refused. -/
theorem decode_of_length_ne {e : StrongEtag} {candidate : String}
    (hcandidate : candidate = e.token ∨ candidate = e.headerValue)
    (h : (Text.splitAt '-' (stripQuotes e.joined)).length ≠ 4) :
    decode candidate =
      .error (.segmentCount candidate (Text.splitAt '-' (stripQuotes e.joined)).length) := by
  unfold decode
  rw [decode_stripQuotes hcandidate]
  simp only [Text.Base64.ofUtf8?_utf8]
  split
  · next hsegments =>
    rw [hsegments] at h
    exact absurd rfl h
  · rfl

/-- Four segments that are not empty are those of the etag. -/
theorem decode_of_eq {e : StrongEtag} {candidate collection srid format version : String}
    (hcandidate : candidate = e.token ∨ candidate = e.headerValue)
    (h : Text.splitAt '-' (stripQuotes e.joined) = [collection, srid, format, version])
    (hfull : "" ∉ [collection, srid, format, version]) :
    decode candidate = .ok { collection, srid, format, version } := by
  unfold decode
  rw [decode_stripQuotes hcandidate]
  simp only [Text.Base64.ofUtf8?_utf8, h, if_neg hfull]

/-! ### Reading segments without dashes and quotes -/

/-- The text is not empty and holds neither a dash nor a quote. -/
@[mk_iff]
structure Bare (s : String) : Prop where
  ne_empty : s ≠ ""
  dash_not_mem : '-' ∉ s.toList
  quote_not_mem : '"' ∉ s.toList

instance (s : String) : Decidable (Bare s) :=
  decidable_of_iff' _ (bare_iff s)

namespace Bare

variable {s : String} (h : Bare s)

include h

theorem pieces : Text.pieces '-' s.toList = [s.toList] :=
  Text.pieces_of_not_mem h.dash_not_mem

theorem filter_eq : s.toList.filter (· ≠ '"') = s.toList :=
  filter_quote_eq_self_iff.mpr h.quote_not_mem

end Bare

/-- The text is not empty and consists of letters and digits. -/
def Alphanumeric (s : String) : Prop :=
  s ≠ "" ∧ ∀ c ∈ s.toList, c.isAlphanum = true

namespace Alphanumeric

variable {s : String} (h : Alphanumeric s)

include h

theorem bare : Bare s where
  ne_empty := h.1
  dash_not_mem hdash := absurd (h.2 _ hdash) (by decide)
  quote_not_mem hquote := absurd (h.2 _ hquote) (by decide)

theorem trimEnd_eq : trimEnd s.toList = s.toList :=
  Text.trimEnd_of_forall fun c hc => Text.isSpace_of_isAlphanum (h.2 c hc)

end Alphanumeric

/-- A text keeps its dashes when it loses its quotes. -/
theorem length_pieces_filter (cs : List Char) :
    (pieces '-' (cs.filter (· ≠ '"'))).length = cs.count '-' + 1 := by
  rw [Text.length_pieces, List.count_filter (by decide)]

/-- Where the last three segments are bare and no space surrounds the etag, it is cut into the
pieces of its collection and these segments. -/
theorem segments_joined {e : StrongEtag} (hcollection : trimStart e.collection.toList =
      e.collection.toList) (hsrid : Bare e.srid) (hformat : Bare e.format) (hversion : Bare e.version)
    (hend : trimEnd e.version.toList = e.version.toList) :
    Text.splitAt '-' (stripQuotes e.joined) =
      (pieces '-' (e.collection.toList.filter (· ≠ '"'))).map String.ofList ++
        [e.srid, e.format, e.version] := by
  unfold Text.splitAt
  rw [toList_stripQuotes_joined, hcollection, hend, hsrid.filter_eq, hformat.filter_eq,
    hversion.filter_eq, Text.pieces_append_cons, Text.pieces_append_cons, Text.pieces_append_cons,
    hsrid.pieces, hformat.pieces, hversion.pieces]
  simp

/-- All four segments of the etag are bare, and no space surrounds it. -/
@[mk_iff]
structure Proper (e : StrongEtag) : Prop where
  collection : Bare e.collection
  srid : Bare e.srid
  format : Bare e.format
  version : Bare e.version
  start : trimStart e.collection.toList = e.collection.toList
  finish : trimEnd e.version.toList = e.version.toList

instance (e : StrongEtag) : Decidable e.Proper :=
  decidable_of_iff' _ (proper_iff e)

/-- A proper etag is read back as it was. -/
theorem Proper.decode {e : StrongEtag} (h : e.Proper) {candidate : String}
    (hcandidate : candidate = e.token ∨ candidate = e.headerValue) :
    StrongEtag.decode candidate = .ok e := by
  have hsegments := segments_joined h.start h.srid h.format h.version h.finish
  rw [h.collection.filter_eq, h.collection.pieces, List.map_singleton, String.ofList_toList,
    List.singleton_append] at hsegments
  refine decode_of_eq hcandidate hsegments ?_
  simp [h.collection.ne_empty.symm, h.srid.ne_empty.symm, h.format.ne_empty.symm,
    h.version.ne_empty.symm]

/-- An etag of letters and digits is read back if its collection holds no dash, and refused as
malformed if it does. -/
theorem decode_of_alphanumeric {e : StrongEtag} {candidate : String}
    (hcandidate : candidate = e.token ∨ candidate = e.headerValue)
    (hcollection : trimStart e.collection.toList = e.collection.toList)
    (hbare : e.collection.toList.filter (· ≠ '"') ≠ []) (hsrid : Alphanumeric e.srid)
    (hformat : Alphanumeric e.format) (hversion : Alphanumeric e.version) :
    (e.collection.toList.count '-' = 0 ∧ ∃ collection, decode candidate =
        .ok { collection, srid := e.srid, format := e.format, version := e.version }) ∨
      (e.collection.toList.count '-' ≠ 0 ∧ decode candidate =
        .error (.segmentCount candidate (4 + e.collection.toList.count '-'))) := by
  have hsegments :=
    segments_joined hcollection hsrid.bare hformat.bare hversion.bare hversion.trimEnd_eq
  have hlength := length_pieces_filter e.collection.toList
  rcases hcount : e.collection.toList.count '-' with - | n
  · rw [hcount] at hlength
    obtain ⟨piece, hpiece⟩ := List.length_eq_one_iff.mp hlength
    have hfull : String.ofList piece ≠ "" := by
      rw [Text.eq_of_pieces_eq hpiece]
      exact fun hempty => hbare (by simpa using congrArg String.toList hempty)
    rw [hpiece] at hsegments
    refine Or.inl ⟨rfl, String.ofList piece, decode_of_eq hcandidate hsegments ?_⟩
    simp [hfull.symm, hsrid.1.symm, hformat.1.symm, hversion.1.symm]
  · have hmany : (Text.splitAt '-' (stripQuotes e.joined)).length = 4 + (n + 1) := by
      rw [hsegments, List.length_append, List.length_map, hlength, hcount]
      simp
      omega
    have hrefused := decode_of_length_ne hcandidate (by omega)
    rw [hmany] at hrefused
    exact Or.inr ⟨by omega, hrefused⟩

end StrongEtag

end FreshTag
