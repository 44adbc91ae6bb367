/-
FreshTag/Proofs/Etag/Grammar.lean

Which texts are read as strong etags.  A candidate without surrounding space and
without quotes has to be the encoding of a text (`Carries`), and that text,
without surrounding space and quotes too, has to be four segments with `-`
between them (`WrittenAs`).  These are the texts that are accepted, and for every
other candidate it is said which of the two fails (`decode_iff_grammar`).

An etag is therefore read back from its own token exactly if dropping spaces and
quotes has no effect on its joined segments, and quotes and spaces around a
token, or quotes in it, make no difference (`decode_token_iff`).
-/
import FreshTag.Proofs.Etag.Segments
import FreshTag.Proofs.Text.Base64

namespace FreshTag

/-- The same cause, of another candidate. -/
def EtagError.about (candidate : String) : EtagError → EtagError
  | .invalidBase64 _ => .invalidBase64 candidate
  | .segmentCount _ found => .segmentCount candidate found

namespace StrongEtag

open Text (isSpace trimChars)

/-! ### The grammar -/

/-- The token is the encoding of the text. -/
def Carries (token text : String) : Prop :=
  Text.Base64.Encodes (Text.Base64.utf8 text) token.toList

/-- A text that may stand between two separators. -/
structure IsSegment (s : String) : Prop where
  ne_empty : s ≠ ""
  dash_not_mem : '-' ∉ s.toList

/-- The text is the four segments of the etag with `-` between them. -/
structure WrittenAs (e : StrongEtag) (text : String) : Prop where
  eq_joined : text = e.joined
  collection : IsSegment e.collection
  srid : IsSegment e.srid
  format : IsSegment e.format
  version : IsSegment e.version

/-- A text is cut into four full pieces exactly if it is written as the etag of these segments. -/
theorem writtenAs_iff {e : StrongEtag} {text : String} :
    e.WrittenAs text ↔
      Text.splitAt '-' text = [e.collection, e.srid, e.format, e.version] ∧
        "" ∉ [e.collection, e.srid, e.format, e.version] := by
  constructor
  · rintro ⟨rfl, hc, hs, hf, hv⟩
    refine ⟨?_, ?_⟩
    · unfold Text.splitAt
      rw [toList_joined, Text.pieces_append_cons, Text.pieces_append_cons, Text.pieces_append_cons,
        Text.pieces_of_not_mem hc.dash_not_mem, Text.pieces_of_not_mem hs.dash_not_mem,
        Text.pieces_of_not_mem hf.dash_not_mem, Text.pieces_of_not_mem hv.dash_not_mem]
      simp
    · simp [hc.ne_empty.symm, hs.ne_empty.symm, hf.ne_empty.symm, hv.ne_empty.symm]
  · rintro ⟨hpieces, hfull⟩
    -- the segments are pieces, and the pieces put together again are the text
    have hdash : ∀ s ∈ [e.collection, e.srid, e.format, e.version], '-' ∉ s.toList := by
      intro s hs
      rw [← hpieces] at hs
      obtain ⟨piece, hpiece, rfl⟩ := List.mem_map.mp hs
      rw [String.toList_ofList]
      exact Text.sep_not_mem_of_mem_pieces hpiece
    have hsegment : ∀ s ∈ [e.collection, e.srid, e.format, e.version], IsSegment s :=
      fun s hs => ⟨fun hempty => hfull (hempty ▸ hs), hdash s hs⟩
    have hchars : Text.pieces '-' text.toList =
        [e.collection.toList, e.srid.toList, e.format.toList, e.version.toList] := by
      have hmap := congrArg (List.map String.toList) hpieces
      rw [Text.splitAt, List.map_map] at hmap
      simpa [Function.comp_def] using hmap
    have hjoined := Text.intercalate_pieces '-' text.toList
    rw [hchars] at hjoined
    refine ⟨String.toList_inj.mp ?_, hsegment _ ?_, hsegment _ ?_, hsegment _ ?_, hsegment _ ?_⟩
    · rw [toList_joined, ← hjoined]
      simp [List.intercalate]
    all_goals simp

/-! ### Reading -/

variable {candidate text : String} {d : StrongEtag}

theorem carries_iff {token : String} :
    Carries token text ↔ ∃ bytes, Text.Base64.decode token.toList = some bytes ∧
      Text.Base64.ofUtf8? bytes = some text := by
  simp only [Carries, ← Text.Base64.decode_eq_some_iff, Text.Base64.ofUtf8?_eq_some_iff]
  simp

theorem Carries.text_unique {token text' : String} (h : Carries token text)
    (h' : Carries token text') : text = text' := by
  rw [Carries, ← Text.Base64.decode_eq_some_iff] at h h'
  exact Text.Base64.utf8_inj (Option.some.inj (h.symm.trans h'))

theorem Carries.token_unique {token token' : String} (h : Carries token text)
    (h' : Carries token' text) : token = token' :=
  String.toList_inj.mp (h.unique h')

theorem carries_token (e : StrongEtag) : Carries e.token e.joined := by
  rw [Carries, token, String.toList_ofList]
  exact Text.Base64.encodes_encode _

/-- What carries no text is no base64. -/
theorem decode_of_not_carries (h : ∀ text, ¬ Carries (stripQuotes candidate) text) :
    decode candidate = .error (.invalidBase64 candidate) := by
  simp only [carries_iff, not_exists, not_and] at h
  unfold decode
  split
  · rfl
  · next bytes hbytes =>
    split
    · rfl
    · next text htext => exact absurd htext (h text bytes hbytes)

/-- A candidate that carries a text is cut into the pieces of it. -/
theorem decode_of_carries (h : Carries (stripQuotes candidate) text) :
    (∃ d : StrongEtag, d.WrittenAs (stripQuotes text) ∧ decode candidate = .ok d) ∨
      (∀ d : StrongEtag, ¬ d.WrittenAs (stripQuotes text)) ∧ decode candidate =
        .error (.segmentCount candidate ((stripQuotes text).toList.count '-' + 1)) := by
  have hlength : (Text.splitAt '-' (stripQuotes text)).length =
      (stripQuotes text).toList.count '-' + 1 := by
    rw [Text.splitAt, List.length_map, Text.length_pieces]
  obtain ⟨bytes, hbytes, htext⟩ := carries_iff.mp h
  unfold decode
  rw [hbytes]
  simp only [htext]
  split
  · next collection srid format version hsegments =>
    rw [hsegments] at hlength
    split
    · next hempty =>
      refine .inr ⟨fun d hd => ?_, by rw [← hlength]; rfl⟩
      rw [hsegments] at hempty
      obtain ⟨hpieces, hfull⟩ := writtenAs_iff.mp hd
      exact hfull (hpieces ▸ hsegments ▸ hempty)
    · next hfull =>
      rw [hsegments] at hfull
      exact .inl ⟨⟨collection, srid, format, version⟩, writtenAs_iff.mpr ⟨hsegments, hfull⟩, rfl⟩
  · next hother =>
    rw [hlength]
    exact .inr ⟨fun d hd => hother _ _ _ _ (writtenAs_iff.mp hd).1, rfl⟩

/-- What is accepted carries a text that is written as the etag. -/
theorem decode_eq_ok_iff :
    decode candidate = .ok d ↔
      ∃ text, Carries (stripQuotes candidate) text ∧ d.WrittenAs (stripQuotes text) := by
  constructor
  · intro h
    by_cases hcarries : ∃ text, Carries (stripQuotes candidate) text
    · obtain ⟨text, htext⟩ := hcarries
      rcases decode_of_carries htext with ⟨d', hd', hok⟩ | ⟨-, herror⟩
      · obtain rfl := Except.ok.inj (h.symm.trans hok)
        exact ⟨text, htext, hd'⟩
      · rw [herror] at h
        cases h
    · rw [decode_of_not_carries (not_exists.mp hcarries)] at h
      cases h
  · rintro ⟨text, htext, hd⟩
    rcases decode_of_carries htext with ⟨d', hd', hok⟩ | ⟨hnone, -⟩
    · -- two etags that are written as one text have the same segments
      have hsegments := (writtenAs_iff.mp hd').1.symm.trans (writtenAs_iff.mp hd).1
      rw [hok]
      obtain ⟨c', s', f', v'⟩ := d'
      obtain ⟨c, s, f, v⟩ := d
      cases hsegments
      rfl
    · exact absurd hd (hnone d)

/-- A candidate is accepted exactly if it is, less surrounding space and quotes, the encoding of a
text that is, less these, four segments without dashes and not empty; the etag has these segments.
It is refused as no base64 exactly if it is the encoding of no text, and with the number of its
segments if it is that of another text.  No two tokens carry one text. -/
theorem decode_iff_grammar (candidate : String) :
    (∀ d, decode candidate = .ok d ↔
        ∃ text, Carries (stripQuotes candidate) text ∧ d.WrittenAs (stripQuotes text)) ∧
      (decode candidate = .error (.invalidBase64 candidate) ↔
        ∀ text, ¬ Carries (stripQuotes candidate) text) ∧
      (∀ text, Carries (stripQuotes candidate) text → (∀ d : StrongEtag, ¬ d.WrittenAs (stripQuotes text)) →
        decode candidate =
          .error (.segmentCount candidate ((stripQuotes text).toList.count '-' + 1))) ∧
      ∀ candidate' text, Carries (stripQuotes candidate) text →
        Carries (stripQuotes candidate') text → stripQuotes candidate = stripQuotes candidate' := by
  refine ⟨fun d => decode_eq_ok_iff, ⟨fun h text htext => ?_, decode_of_not_carries⟩, ?_, ?_⟩
  · rcases decode_of_carries htext with ⟨d, -, hok⟩ | ⟨-, herror⟩
    · rw [hok] at h
      cases h
    · rw [herror] at h
      cases h
  · intro text htext hnone
    rcases decode_of_carries htext with ⟨d, hd, -⟩ | ⟨-, herror⟩
    · exact absurd hd (hnone d)
    · exact herror
  · exact fun candidate' text h h' => h.token_unique h'

/-! ### Spaces and quotes that change nothing -/

/-- Dropping spaces and quotes has no effect exactly if there are no quotes and no spaces around
the text. -/
theorem stripQuotes_eq_self_iff {s : String} :
    stripQuotes s = s ↔ '"' ∉ s.toList ∧ trimChars s.toList = s.toList := by
  rw [← String.toList_inj, stripQuotes, String.toList_ofList]
  constructor
  · intro h
    -- both steps together drop nothing, so neither of them does
    have htrim : trimChars s.toList = s.toList := by
      have hlength := (List.filter_sublist (p := (· ≠ '"')) (l := trimChars s.toList)).length_le
      rw [h] at hlength
      exact (Text.trimChars_sublist _).eq_of_length_le hlength
    rw [htrim, filter_quote_eq_self_iff] at h
    exact ⟨h, htrim⟩
  · rintro ⟨hquote, htrim⟩
    rw [htrim, filter_quote_eq_self_iff]
    exact hquote

/-- The etag is read back from its token exactly if its joined segments are not changed by dropping
spaces and quotes, and can be cut again. -/
theorem decode_token_eq_ok_iff {e : StrongEtag} :
    decode e.token = .ok e ↔ e.WrittenAs (stripQuotes e.joined) := by
  rw [decode_eq_ok_iff, stripQuotes_token]
  constructor
  · rintro ⟨text, htext, h⟩
    rw [htext.text_unique (carries_token e)] at h
    exact h
  · exact fun h => ⟨_, carries_token e, h⟩

theorem writtenAs_stripQuotes_joined_iff {e : StrongEtag} :
    e.WrittenAs (stripQuotes e.joined) ↔
      (Bare e.collection ∧ Bare e.srid ∧ Bare e.format ∧ Bare e.version) ∧
        (∀ c, e.collection.toList.head? = some c → isSpace c = false) ∧
        ∀ c, e.version.toList.getLast? = some c → isSpace c = false := by
  have hfirst : e.collection ≠ "" → e.joined.toList.head? = e.collection.toList.head? := by
    intro hne
    rw [toList_joined, List.head?_append_of_ne_nil _ (by simpa using hne)]
  have hlast : e.version ≠ "" → e.joined.toList.getLast? = e.version.toList.getLast? := by
    intro hne
    have hversion : e.version.toList ≠ [] := by simpa using hne
    simp [toList_joined, List.getLast?_append, List.getLast?_cons,
      List.getLast?_eq_some_getLast hversion]
  have hquote : '"' ∉ e.joined.toList ↔ ('"' ∉ e.collection.toList ∧ '"' ∉ e.srid.toList) ∧
      '"' ∉ e.format.toList ∧ '"' ∉ e.version.toList := by
    simp [toList_joined, and_assoc]
  constructor
  · rintro ⟨hself, hc, hs, hf, hv⟩
    obtain ⟨hquotes, htrim⟩ := stripQuotes_eq_self_iff.mp hself
    obtain ⟨⟨hcq, hsq⟩, hfq, hvq⟩ := hquote.mp hquotes
    rw [Text.trimChars_eq_self_iff, hfirst hc.ne_empty, hlast hv.ne_empty] at htrim
    exact ⟨⟨⟨hc.1, hc.2, hcq⟩, ⟨hs.1, hs.2, hsq⟩, ⟨hf.1, hf.2, hfq⟩, ⟨hv.1, hv.2, hvq⟩⟩, htrim⟩
  · rintro ⟨⟨hc, hs, hf, hv⟩, hends⟩
    rw [← hfirst hc.ne_empty, ← hlast hv.ne_empty, ← Text.trimChars_eq_self_iff] at hends
    have hquotes := hquote.mpr ⟨⟨hc.quote_not_mem, hs.quote_not_mem⟩, hf.quote_not_mem,
      hv.quote_not_mem⟩
    exact ⟨stripQuotes_eq_self_iff.mpr ⟨hquotes, hends⟩, ⟨hc.1, hc.2⟩, ⟨hs.1, hs.2⟩, ⟨hf.1, hf.2⟩,
      ⟨hv.1, hv.2⟩⟩

/-- The candidate is the token with quotes put in anywhere, and with spaces around it. -/
def Dressed (token candidate : String) : Prop :=
  ∃ before quoted after : List Char, candidate.toList = before ++ (quoted ++ after) ∧
    (∀ c ∈ before, isSpace c = true) ∧ quoted.filter (· ≠ '"') = token.toList ∧
    ∀ c ∈ after, isSpace c = true

theorem stripQuotes_of_dressed {e : StrongEtag} (h : Dressed e.token candidate) :
    stripQuotes candidate = e.token := by
  obtain ⟨before, quoted, after, hchars, hbefore, hquoted, hafter⟩ := h
  have hspace : ∀ c ∈ quoted, isSpace c = false := by
    intro c hc
    by_cases hquote : c = '"'
    · rw [hquote]
      decide
    · have hmem : c ∈ quoted.filter (· ≠ '"') := List.mem_filter.mpr ⟨hc, decide_eq_true hquote⟩
      rw [hquoted] at hmem
      exact (of_mem_token hmem).1
  rw [stripQuotes, hchars, Text.trimChars_between hbefore hafter hspace, hquoted,
    String.ofList_toList]

theorem dressed_headerValue (e : StrongEtag) : Dressed e.token e.headerValue := by
  refine ⟨[], e.headerValue.toList, [], by simp, by simp, ?_, by simp⟩
  rw [toList_headerValue, List.filter_cons_of_neg (by decide), List.filter_append, filter_token]
  simp

/-- Candidates that differ in surrounding space and in quotes are read alike. -/
theorem decode_congr {a b : String} (h : stripQuotes a = stripQuotes b) :
    decode a = (decode b).mapError (EtagError.about a) := by
  unfold decode
  rw [h]
  split
  · rfl
  · split
    · rfl
    · simp only
      split
      · split <;> rfl
      · rfl

/-- An etag is read back from its token exactly if none of its segments is empty or holds a dash or
a quote, the collection does not begin with space and the version does not end with space.  The
header value, and the token with any quotes in it and any space around it, are read as the token
itself is, with the same segments or for the same cause. -/
theorem decode_token_iff (e : StrongEtag) :
    (decode e.token = .ok e ↔
        (Bare e.collection ∧ Bare e.srid ∧ Bare e.format ∧ Bare e.version) ∧
          (∀ c, e.collection.toList.head? = some c → isSpace c = false) ∧
          ∀ c, e.version.toList.getLast? = some c → isSpace c = false) ∧
      ∀ candidate, candidate = e.headerValue ∨ Dressed e.token candidate →
        decode candidate = (decode e.token).mapError (EtagError.about candidate) := by
  refine ⟨decode_token_eq_ok_iff.trans writtenAs_stripQuotes_joined_iff, ?_⟩
  intro candidate hcandidate
  have hdressed : Dressed e.token candidate := by
    rcases hcandidate with rfl | h
    exacts [dressed_headerValue e, h]
  exact decode_congr ((stripQuotes_of_dressed hdressed).trans (stripQuotes_token e).symm)

end StrongEtag

end FreshTag
