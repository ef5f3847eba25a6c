import Mathlib.Data.List.Basic

/-!
# EscapedPath — token lists as separator-delimited, escaped strings

An `EscapeCodec α` names a separator, a marker and the two codes that stand, after the marker, for
the marker itself and for the separator.  Over it this module defines

* `escape` / `unescape` for one token, and
* `encode` / `decode` for a list of tokens, each token preceded by one separator,

and proves that the two directions are inverse to each other on exactly the accepted strings
(`decode_eq_some_iff`), so that every accepted string spells exactly one token list.
-/

namespace AscCpp
namespace Library

universe u

/-- The four characters of an escaping scheme, with the distinctness that makes it decodable. -/
structure EscapeCodec (α : Type u) where
  separator : α
  marker : α
  markerCode : α
  separatorCode : α
  marker_ne_separator : marker ≠ separator
  markerCode_ne_separator : markerCode ≠ separator
  separatorCode_ne_separator : separatorCode ≠ separator
  markerCode_ne_separatorCode : markerCode ≠ separatorCode

namespace EscapeCodec

variable {α : Type u} [DecidableEq α] (codec : EscapeCodec α)

/-- Replace every marker and separator by its two-character escape. -/
def escape : List α → List α
  | [] => []
  | c :: rest =>
      if c = codec.marker then
        codec.marker :: codec.markerCode :: escape rest
      else if c = codec.separator then
        codec.marker :: codec.separatorCode :: escape rest
      else
        c :: escape rest

/-- Undo `escape`; a marker must be followed by one of the two codes. -/
def unescape : List α → Option (List α)
  | [] => some []
  | [c] => if c = codec.marker then none else some [c]
  | c :: d :: rest =>
      if c = codec.marker then
        if d = codec.markerCode then
          (unescape rest).map (codec.marker :: ·)
        else if d = codec.separatorCode then
          (unescape rest).map (codec.separator :: ·)
        else
          none
      else
        (unescape (d :: rest)).map (c :: ·)

/-- Every token, escaped and preceded by a separator. -/
def encode : List (List α) → List α
  | [] => []
  | token :: tokens => codec.separator :: (codec.escape token ++ encode tokens)

/-- Split at the separators and unescape every piece. -/
def decode : List α → Option (List (List α))
  | [] => some []
  | c :: rest =>
      if c = codec.separator then
        (rest.splitOn codec.separator).mapM codec.unescape
      else
        none

/-! ## One token -/

@[simp]
theorem escape_nil : codec.escape [] = [] := rfl

theorem separator_not_mem_escape (token : List α) :
    codec.separator ∉ codec.escape token := by
  induction token with
  | nil =>
      simp [escape]
  | cons c rest ih =>
      by_cases hm : c = codec.marker
      · simp [escape, hm, ih, codec.marker_ne_separator.symm,
          codec.markerCode_ne_separator.symm]
      · by_cases hs : c = codec.separator
        · simp [escape, hs, codec.marker_ne_separator.symm, ih,
            codec.separatorCode_ne_separator.symm]
        · simp [escape, hm, hs, ih, Ne.symm hs]

theorem unescape_cons_of_ne {c : α} (h : c ≠ codec.marker) (rest : List α) :
    codec.unescape (c :: rest) = (codec.unescape rest).map (c :: ·) := by
  cases rest with
  | nil => simp [unescape, h]
  | cons d rest => simp [unescape, h]

theorem unescape_escape (token : List α) :
    codec.unescape (codec.escape token) = some token := by
  induction token with
  | nil =>
      rfl
  | cons c rest ih =>
      by_cases hm : c = codec.marker
      · simp [escape, hm, unescape, ih]
      · by_cases hs : c = codec.separator
        · simp [escape, hs, codec.marker_ne_separator.symm, unescape, ih,
            codec.markerCode_ne_separatorCode.symm]
        · simp [escape, hm, hs, unescape_cons_of_ne, ih]

/-- A piece without separators that unescapes is the escape of what it unescapes to. -/
theorem escape_of_unescape {piece token : List α} (hsep : codec.separator ∉ piece)
    (h : codec.unescape piece = some token) : codec.escape token = piece := by
  -- One case for each branch of `unescape`; a lone marker has no value.
  induction piece using EscapeCodec.unescape.induct codec generalizing token with
  | case1 =>
      simp [unescape] at h
      simp [h]
  | case2 =>
      simp [unescape] at h
  | case3 c hc =>
      have hs : c ≠ codec.separator := by
        rintro rfl
        simp at hsep
      simp only [unescape, hc, if_false, Option.some.injEq] at h
      simp [← h, escape, hc, hs]
  | case4 rest ih =>
      simp only [unescape, if_true, Option.map_eq_some_iff] at h
      obtain ⟨tail, htail, rfl⟩ := h
      have hrest : codec.separator ∉ rest := by
        simp only [List.mem_cons, not_or] at hsep
        exact hsep.2.2
      simp [escape, ih hrest htail]
  | case5 rest hcode ih =>
      simp only [unescape, if_true, hcode, if_false, Option.map_eq_some_iff] at h
      obtain ⟨tail, htail, rfl⟩ := h
      have hrest : codec.separator ∉ rest := by
        simp only [List.mem_cons, not_or] at hsep
        exact hsep.2.2
      simp [escape, codec.marker_ne_separator.symm, ih hrest htail]
  | case6 d rest hm hs =>
      simp [unescape, hm, hs] at h
  | case7 c d rest hc ih =>
      simp only [unescape, hc, if_false, Option.map_eq_some_iff] at h
      obtain ⟨tail, htail, rfl⟩ := h
      simp only [List.mem_cons, not_or] at hsep
      have hrest : codec.separator ∉ d :: rest := by
        simp only [List.mem_cons, not_or]
        exact hsep.2
      simp [escape, hc, Ne.symm hsep.1, ih hrest htail]

/-! ## Token lists -/

@[simp]
theorem encode_nil : codec.encode [] = [] := rfl

theorem encode_cons (token : List α) (tokens : List (List α)) :
    codec.encode (token :: tokens) =
      codec.separator :: (codec.escape token ++ codec.encode tokens) := rfl

theorem intercalate_map_escape (token : List α) (tokens : List (List α)) :
    [codec.separator].intercalate ((token :: tokens).map codec.escape) =
      codec.escape token ++ codec.encode tokens := by
  induction tokens generalizing token with
  | nil =>
      simp [List.intercalate]
  | cons next tokens ih =>
      have hnext := ih next
      simp only [List.intercalate, List.map_cons, List.intersperse, List.flatten] at hnext ⊢
      simp [encode_cons, ← hnext]

theorem splitOn_encode (token : List α) (tokens : List (List α)) :
    (codec.escape token ++ codec.encode tokens).splitOn codec.separator =
      (token :: tokens).map codec.escape := by
  rw [← intercalate_map_escape]
  refine List.splitOn_intercalate codec.separator ?_ (by simp)
  intro piece hmem
  obtain ⟨t, -, rfl⟩ := List.mem_map.1 hmem
  exact codec.separator_not_mem_escape t

theorem decode_encode (tokens : List (List α)) :
    codec.decode (codec.encode tokens) = some tokens := by
  cases tokens with
  | nil => rfl
  | cons token tokens =>
      simp only [encode_cons, decode, if_true, splitOn_encode]
      generalize token :: tokens = all
      induction all with
      | nil => rfl
      | cons t ts ih => simp [unescape_escape, ih]

theorem separator_not_mem_of_mem_splitOn {s : α} {text piece : List α}
    (h : piece ∈ text.splitOn s) : s ∉ piece := by
  induction text generalizing piece with
  | nil =>
      simp at h
      simp [h]
  | cons c rest ih =>
      -- A separator begins a piece, anything else extends the first one.
      rw [List.splitOn_cons_eq_if_modifyHead] at h
      split at h
      · rcases List.mem_cons.1 h with rfl | hrest
        · simp
        · exact ih hrest
      · rename_i hc
        cases hsplit : rest.splitOn s with
        | nil =>
            simp [hsplit] at h
        | cons head tail =>
            simp only [hsplit, List.modifyHead_cons, List.mem_cons] at h
            rcases h with rfl | htail
            · have hhead : s ∉ head := ih (by simp [hsplit])
              have hne : s ≠ c := by
                rintro rfl
                simp at hc
              simp [hhead, hne]
            · exact ih (by simp [hsplit, htail])

theorem map_escape_of_mapM_unescape {pieces tokens : List (List α)}
    (hsep : ∀ piece ∈ pieces, codec.separator ∉ piece)
    (h : pieces.mapM codec.unescape = some tokens) : tokens.map codec.escape = pieces := by
  induction pieces generalizing tokens with
  | nil =>
      simp at h
      simp [h]
  | cons piece pieces ih =>
      simp only [List.mapM_cons, Option.bind_eq_bind, Option.pure_def,
        Option.bind_eq_some_iff, Option.some.injEq] at h
      obtain ⟨token, htoken, rest, hrest, rfl⟩ := h
      have hhead := codec.escape_of_unescape (hsep piece List.mem_cons_self) htoken
      have htail := ih (fun p hp => hsep p (List.mem_cons_of_mem _ hp)) hrest
      simp [hhead, htail]

theorem encode_of_decode {path : List α} {tokens : List (List α)}
    (h : codec.decode path = some tokens) : codec.encode tokens = path := by
  cases path with
  | nil =>
      simp [decode] at h
      simp [h]
  | cons c rest =>
      by_cases hc : c = codec.separator
      · simp only [decode, hc, if_true] at h
        have hpieces := codec.map_escape_of_mapM_unescape
          (fun piece hmem => separator_not_mem_of_mem_splitOn hmem) h
        cases tokens with
        | nil =>
            simp at hpieces
        | cons token tokens =>
            have hjoin := codec.intercalate_map_escape token tokens
            rw [hpieces, List.intercalate_splitOn] at hjoin
            rw [encode_cons, ← hjoin, hc]
      · simp [decode, hc] at h

/-- The accepted strings are exactly the encodings, each of one token list. -/
theorem decode_eq_some_iff {path : List α} {tokens : List (List α)} :
    codec.decode path = some tokens ↔ path = codec.encode tokens := by
  constructor
  · intro h
    exact (codec.encode_of_decode h).symm
  · rintro rfl
    exact codec.decode_encode tokens

theorem encode_injective : Function.Injective codec.encode := by
  intro tokens tokens' h
  have hdecode := codec.decode_encode tokens
  rw [h, decode_encode] at hdecode
  exact (Option.some.inj hdecode).symm

end EscapeCodec

end Library
end AscCpp
