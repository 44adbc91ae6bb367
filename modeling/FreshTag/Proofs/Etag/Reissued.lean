/-
FreshTag/Proofs/Etag/Reissued.lean

Tokens that are issued again for an etag that was read.  The segments of such
an etag are bare (`bare_of_decode`), and of bare segments the token loses
nothing but space in front of the collection and behind the version
(`decode_token_of_bare`).  So the etag comes back exactly if there is no such
space, and what comes back once comes back from then on (`reissued_etags`).

A text without quotes has no such space once it is trimmed.  Quotes are dropped
after the trim, and may have kept space inside of them (`quotedPlants_change`).
-/
import FreshTag.Proofs.Etag.Grammar

namespace FreshTag.StrongEtag

open Text (isSpace trimChars trimEnd trimStart)

variable {candidate text : String} {d e : StrongEtag}

/-! ### The segments of an etag that was read -/

/-- No segment is empty or holds a dash or a quote. -/
structure AllBare (e : StrongEtag) : Prop where
  collection : Bare e.collection
  srid : Bare e.srid
  format : Bare e.format
  version : Bare e.version

/-- There is no space in front of the collection and none behind the version. -/
structure Unpadded (e : StrongEtag) : Prop where
  start : ∀ c, e.collection.toList.head? = some c → isSpace c = false
  finish : ∀ c, e.version.toList.getLast? = some c → isSpace c = false

/-- The etag without space in front of the collection and behind the version. -/
def unpadded (e : StrongEtag) : StrongEtag :=
  { e with
    collection := String.ofList (trimStart e.collection.toList)
    version := String.ofList (trimEnd e.version.toList) }

theorem quote_not_mem_stripQuotes (s : String) : '"' ∉ (stripQuotes s).toList := by
  rw [stripQuotes, String.toList_ofList, List.mem_filter]
  simp

theorem AllBare.quote_not_mem_joined (h : e.AllBare) : '"' ∉ e.joined.toList := by
  simp [toList_joined, h.collection.quote_not_mem, h.srid.quote_not_mem, h.format.quote_not_mem,
    h.version.quote_not_mem]

theorem WrittenAs.allBare (h : d.WrittenAs text) (hquote : '"' ∉ text.toList) : d.AllBare := by
  obtain ⟨rfl, hc, hs, hf, hv⟩ := h
  simp only [toList_joined, List.mem_append, List.mem_cons, not_or] at hquote
  obtain ⟨hcq, -, hsq, -, hfq, -, hvq⟩ := hquote
  exact ⟨⟨hc.1, hc.2, hcq⟩, ⟨hs.1, hs.2, hsq⟩, ⟨hf.1, hf.2, hfq⟩, ⟨hv.1, hv.2, hvq⟩⟩

/-- What was read has bare segments. -/
theorem bare_of_decode (h : decode candidate = .ok d) : d.AllBare := by
  obtain ⟨text, -, hwritten⟩ := decode_eq_ok_iff.mp h
  exact hwritten.allBare (quote_not_mem_stripQuotes text)

/-! ### Their token -/

/-- Four segments with an empty one among them are refused. -/
theorem decode_of_empty {collection srid format version : String}
    (hcandidate : candidate = e.token ∨ candidate = e.headerValue)
    (h : Text.splitAt '-' (stripQuotes e.joined) = [collection, srid, format, version])
    (hempty : "" ∈ [collection, srid, format, version]) :
    decode candidate = .error (.segmentCount candidate 4) := by
  unfold decode
  rw [decode_stripQuotes hcandidate]
  simp only [Text.Base64.ofUtf8?_utf8, h, if_pos hempty]

/-- The token of bare segments is cut into them again, less the space around it. -/
theorem AllBare.segments (h : e.AllBare) : Text.splitAt '-' (stripQuotes e.joined) =
    [e.unpadded.collection, e.srid, e.format, e.unpadded.version] := by
  -- trimming takes characters out of the outer segments, and puts none in
  have hstart : ∀ c ∈ trimStart e.collection.toList, c ∈ e.collection.toList := fun _ hc =>
    (Text.trimStart_sublist _).subset hc
  have hend : ∀ c ∈ trimEnd e.version.toList, c ∈ e.version.toList := fun _ hc =>
    (Text.trimEnd_sublist _).subset hc
  unfold Text.splitAt
  rw [toList_stripQuotes_joined, h.srid.filter_eq, h.format.filter_eq,
    filter_quote_eq_self_iff.mpr fun hquote => h.collection.quote_not_mem (hstart _ hquote),
    filter_quote_eq_self_iff.mpr fun hquote => h.version.quote_not_mem (hend _ hquote),
    Text.pieces_append_cons, Text.pieces_append_cons, Text.pieces_append_cons, h.srid.pieces,
    h.format.pieces, Text.pieces_of_not_mem fun hdash => h.collection.dash_not_mem (hstart _ hdash),
    Text.pieces_of_not_mem fun hdash => h.version.dash_not_mem (hend _ hdash)]
  simp [unpadded]

/-- The token of bare segments loses the space around it, and is refused if nothing else is left of
a segment. -/
theorem decode_token_of_bare (h : e.AllBare) :
    decode e.token =
      if e.unpadded.collection = "" ∨ e.unpadded.version = "" then
        .error (.segmentCount e.token 4)
      else .ok e.unpadded := by
  have hempty : "" ∈ [e.unpadded.collection, e.srid, e.format, e.unpadded.version] ↔
      e.unpadded.collection = "" ∨ e.unpadded.version = "" := by
    simp [h.srid.ne_empty.symm, h.format.ne_empty.symm, eq_comm (a := "")]
  split
  · next hnone => exact decode_of_empty (.inl rfl) h.segments (hempty.mpr hnone)
  · next hsome => exact decode_of_eq (.inl rfl) h.segments (hsome ∘ hempty.mp)

theorem AllBare.comes_back_iff (h : e.AllBare) : decode e.token = .ok e ↔ e.Unpadded := by
  rw [decode_token_eq_ok_iff, writtenAs_stripQuotes_joined_iff]
  exact ⟨fun hproper => ⟨hproper.2.1, hproper.2.2⟩,
    fun hclear => ⟨⟨h.collection, h.srid, h.format, h.version⟩, hclear.start, hclear.finish⟩⟩

/-- An etag that was read out of a text without quotes comes back. -/
theorem decode_token_of_quote_not_mem (hcarries : Carries (stripQuotes candidate) text)
    (hquote : '"' ∉ text.toList) (h : decode candidate = .ok d) : decode d.token = .ok d := by
  obtain ⟨text', htext', hwritten⟩ := decode_eq_ok_iff.mp h
  obtain rfl := htext'.text_unique hcarries
  have hstrip : stripQuotes text' = String.ofList (trimChars text'.toList) := by
    rw [stripQuotes, filter_quote_eq_self_iff.mpr]
    exact fun hmem => hquote ((Text.trimChars_sublist _).subset hmem)
  -- the joined segments are the trimmed text, which stripping does not change
  rw [decode_token_eq_ok_iff, ← hwritten.eq_joined, stripQuotes_eq_self_iff.mpr]
  · exact hwritten
  · refine ⟨quote_not_mem_stripQuotes text', ?_⟩
    rw [hstrip, String.toList_ofList, Text.trimChars_trimChars]

/-- An etag that was read comes back from the token of its segments exactly if there is no space in
front of its collection and none behind its version; otherwise the token gives the etag without this
space, or is refused if a segment is nothing but such space.  There is none if the text that the
candidate carried holds no quotes, so what a token gives comes back ever after. -/
theorem reissued_etags (h : decode candidate = .ok d) :
    (decode d.token = .ok d ↔ d.Unpadded) ∧
      (decode d.token =
        if d.unpadded.collection = "" ∨ d.unpadded.version = "" then
          .error (.segmentCount d.token 4)
        else .ok d.unpadded) ∧
      (∀ text, Carries (stripQuotes candidate) text → '"' ∉ text.toList →
        decode d.token = .ok d) ∧
      ∀ d', decode d.token = .ok d' → decode d'.token = .ok d' := by
  have hbare := bare_of_decode h
  refine ⟨hbare.comes_back_iff, decode_token_of_bare hbare, fun text hcarries hquote => ?_,
    fun d' hd' => ?_⟩
  · exact decode_token_of_quote_not_mem hcarries hquote h
  · have hcarries : Carries (stripQuotes d.token) d.joined := by
      rw [stripQuotes_token]
      exact carries_token d
    exact decode_token_of_quote_not_mem hcarries hbare.quote_not_mem_joined hd'

/-- The token of a text. -/
def tokenOf (text : String) : String :=
  String.ofList (Text.Base64.encode (Text.Base64.utf8 text))

/-- Quotes around the text of a token, and nothing but the text in them. -/
theorem quotedPlants_come_back :
    ∃ d, decode (tokenOf "\"public.plants-25832-JSON-10\"") = .ok d ∧ decode d.token = .ok d := by
  have hdecode : decode (tokenOf "\"public.plants-25832-JSON-10\"") =
      .ok ⟨"public.plants", "25832", "JSON", "10"⟩ := rfl
  have hclear : Unpadded ⟨"public.plants", "25832", "JSON", "10"⟩ :=
    ⟨by rintro _ ⟨⟩; rfl, by rintro _ ⟨⟩; rfl⟩
  obtain ⟨hiff, -⟩ := reissued_etags hdecode
  exact ⟨_, hdecode, hiff.mpr hclear⟩

/-- With a space between the quote and the collection, the collection is read with the space, and
without it from the token of what was read. -/
theorem quotedPlants_change :
    ∃ d, decode (tokenOf "\" public.plants-25832-JSON-10\"") = .ok d ∧
      d.collection = " public.plants" ∧
      decode d.token = .ok { d with collection := "public.plants" } ∧ decode d.token ≠ .ok d := by
  have hagain : decode (token ⟨" public.plants", "25832", "JSON", "10"⟩) =
      .ok ⟨"public.plants", "25832", "JSON", "10"⟩ := rfl
  refine ⟨⟨" public.plants", "25832", "JSON", "10"⟩, rfl, rfl, hagain, fun hsame => ?_⟩
  exact absurd (Except.ok.inj (hagain.symm.trans hsame)) (by decide)

end FreshTag.StrongEtag
