/-
FreshTag/Proofs/Conditional/Header.lean

The header `If-None-Match` that a client makes of etags.  Between its commas
stand header values, with or without the mark of weakness, or nothing; white
space does not count.  Reading it gives the header values in their order
(`parse_headerOf`), whatever the etags are: the characters of a token are
neither commas nor spaces, and no tag is `*`.
-/
import FreshTag.Conditional
import FreshTag.Proofs.Etag.Segments

namespace FreshTag.IfNoneMatch

open Text (pieces trimChars)

/-- A run of white space. -/
structure Space where
  chars : List Char
  isSpace : ∀ c ∈ chars, Text.isSpace c = true

/-- What stands between two commas of a header. -/
inductive Element where
  /-- white space alone -/
  | blank (space : Space)
  /-- the header value of an etag, which may be marked as weak -/
  | tag (before : Space) (marked : Bool) (etag : StrongEtag) (after : Space)

namespace Element

/-- The tag of an element. -/
def tagChars : Element → List Char
  | blank _ => []
  | tag _ marked etag _ => (if marked then ['W', '/'] else []) ++ etag.headerValue.toList

/-- An element as it stands in the header. -/
def chars : Element → List Char
  | blank space => space.chars
  | tag before marked etag after =>
    before.chars ++ ((tag before marked etag after).tagChars ++ after.chars)

/-- The etag of an element. -/
def etag? : Element → Option StrongEtag
  | blank _ => none
  | tag _ _ etag _ => some etag

end Element

/-- The header made of elements. -/
def headerOf (elements : List Element) : String :=
  String.ofList (List.intercalate [','] (elements.map Element.chars))

/-- The etags of elements. -/
def etagsOf (elements : List Element) : List StrongEtag :=
  elements.filterMap Element.etag?

/-! ### One element -/

namespace Element

/-- A tag ends with the header value, and in front of it the mark may stand. -/
theorem tagChars_tag (before : Space) (marked : Bool) (etag : StrongEtag) (after : Space) :
    (tag before marked etag after).tagChars =
      (if marked then ['W', '/'] else []) ++ '"' :: (etag.token.toList ++ ['"']) := by
  rw [tagChars, etag.toList_headerValue]

/-- The characters of a tag stand apart from what surrounds it. -/
theorem of_mem_tagChars {element : Element} {c : Char} (h : c ∈ element.tagChars) :
    Text.isSpace c = false ∧ c ≠ ',' := by
  cases element with
  | blank space => cases h
  | tag before marked etag after =>
    rw [tagChars_tag, List.mem_append, List.mem_cons, List.mem_append, List.mem_singleton] at h
    rcases h with hmark | rfl | htoken | rfl
    · have hchar : c = 'W' ∨ c = '/' := by
        cases marked
        · cases hmark
        · simpa using hmark
      rcases hchar with rfl | rfl
      all_goals decide
    · decide
    · exact ⟨(StrongEtag.of_mem_token htoken).1, (StrongEtag.of_mem_token htoken).2.2⟩
    · decide

theorem trimChars_chars (element : Element) : trimChars element.chars = element.tagChars := by
  cases element with
  | blank space => exact Text.trimChars_of_space space.isSpace
  | tag before marked etag after =>
    exact Text.trimChars_between before.isSpace after.isSpace fun c hc => (of_mem_tagChars hc).1

/-- A space is no comma. -/
theorem comma_not_mem_space (space : Space) : ',' ∉ space.chars :=
  fun h => absurd (space.isSpace _ h) (by decide)

theorem comma_not_mem_chars (element : Element) : ',' ∉ element.chars := by
  cases element with
  | blank space => exact comma_not_mem_space space
  | tag before marked etag after =>
    show ',' ∉ before.chars ++ (_ ++ after.chars)
    rw [List.mem_append, List.mem_append]
    rintro (hbefore | htag | hafter)
    · exact comma_not_mem_space before hbefore
    · exact (of_mem_tagChars htag).2 rfl
    · exact comma_not_mem_space after hafter

theorem tagChars_ne_star (element : Element) : element.tagChars ≠ ['*'] := by
  cases element with
  | blank space => simp [tagChars]
  | tag before marked etag after =>
    rw [tagChars_tag]
    cases marked
    all_goals simp

/-- Without the mark, a tag is the header value. -/
theorem withoutMark_tagChars (before : Space) (marked : Bool) (etag : StrongEtag) (after : Space) :
    withoutMark (tag before marked etag after).tagChars = etag.headerValue.toList := by
  cases marked
  · -- a header value begins with a quote, so it loses nothing
    simp [tagChars, withoutMark, etag.toList_headerValue, Text.dropStart?]
  · simp [tagChars, withoutMark, Text.dropStart?]

end Element

/-! ### The whole header -/

/-- What is cut out of a header are the tags of its elements, but for blank ones. -/
theorem filter_pieces_headerOf (elements : List Element) :
    ((pieces ',' (trimChars (headerOf elements).toList)).map trimChars).filter (· ≠ []) =
      (elements.map Element.tagChars).filter (· ≠ []) := by
  rw [Text.map_pieces_trimChars (by decide), headerOf, String.toList_ofList]
  rcases elements with - | ⟨first, rest⟩
  · rfl
  · have hcomma : ∀ text ∈ (first :: rest).map Element.chars, ',' ∉ text := by
      intro text htext
      obtain ⟨element, -, rfl⟩ := List.mem_map.mp htext
      exact element.comma_not_mem_chars
    rw [Text.pieces_intercalate (by simp) hcomma, List.map_map]
    exact congrArg _ (List.map_congr_left fun element _ => element.trimChars_chars)

theorem trimChars_headerOf_ne_star (elements : List Element) :
    trimChars (headerOf elements).toList ≠ ['*'] := by
  intro hstar
  have htags := filter_pieces_headerOf elements
  rw [hstar] at htags
  have hmem : ['*'] ∈ (elements.map Element.tagChars).filter (· ≠ []) := by
    rw [← htags]
    decide
  obtain ⟨element, -, htag⟩ := List.mem_map.mp (List.mem_of_mem_filter hmem)
  exact element.tagChars_ne_star htag

/-- The tags that are not blank, without their marks, are the header values of the etags. -/
theorem withoutMark_tags (elements : List Element) :
    ((elements.map Element.tagChars).filter (· ≠ [])).map
        (fun tag => String.ofList (withoutMark tag)) =
      (etagsOf elements).map StrongEtag.headerValue := by
  induction elements with
  | nil => rfl
  | cons element rest ih =>
    cases element with
    | blank space => exact ih
    | tag before marked etag after =>
      have hne : (Element.tag before marked etag after).tagChars ≠ [] := by
        simp [Element.tagChars_tag]
      rw [List.map_cons, List.filter_cons_of_pos (by simpa using hne), List.map_cons, ih,
        Element.withoutMark_tagChars, String.ofList_toList]
      rfl

/-- A header that is made of etags is read as their header values, in their order. -/
theorem parse_headerOf (elements : List Element) :
    parse (headerOf elements) = .tags ((etagsOf elements).map StrongEtag.headerValue) := by
  have htags := filter_pieces_headerOf elements
  unfold parse
  rw [← withoutMark_tags, ← htags]
  exact if_neg (trimChars_headerOf_ne_star elements)

end FreshTag.IfNoneMatch
