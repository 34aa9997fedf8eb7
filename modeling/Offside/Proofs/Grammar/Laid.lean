import Offside.Proofs.Grammar.Trees
import Offside.Proofs.Layout.Content

/-!
What the layout pass guarantees to the parser.

`Input.Laid` lists it: no token has the kind of the end, a virtual token has no
text, a separator stands in front of a written token, no separator stands behind
a start, and every start has its end. `laid_ofTokens` shows it of every layout
of written tokens.

The end of a start is found by induction on what is left of the input, along
with the blocks that are open: where one is open, trees lead on to the end that
closes it (`exists_stop`).
-/

namespace Offside.Input

open Layout

/-- The guarantees of a layout. -/
structure Laid (input : Input) : Prop where
  inside : ∀ place, place < input.size → input.kindAt place ≠ .eof
  text_written : ∀ place, input.textAt place ≠ "" → (input.kindAt place).isWritten = true
  sep_next : ∀ place, input.kindAt place = .layoutSep →
    (input.kindAt (place + 1)).isWritten = true
  start_next : ∀ place, input.kindAt place = .layoutStart →
    input.kindAt (place + 1) ≠ .layoutSep
  closes : ∀ start, input.kindAt start = .layoutStart → ∃ stop, input.Closes start stop

-- ============================================== the significant tokens

/-- Looking a place up through the indices, which count from `first`, finds the significant
token of that place. -/
theorem getElem?_significantIndices (all : List LayoutToken) (tokens : List LayoutToken) :
    ∀ (first place : Nat), all.drop first = tokens →
      (significantIndices first tokens)[place]?.bind (all[·]?)
        = (significantOf tokens)[place]? := by
  induction tokens with
  | nil => exact fun _ _ _ => rfl
  | cons token rest ih =>
    intro first place hdrop
    have hrest : all.drop (first + 1) = rest := by
      rw [← List.drop_drop, hdrop]
      rfl
    have hfirst : all[first]? = some token := by
      rw [← Nat.add_zero first, ← List.getElem?_drop, hdrop]
      rfl
    unfold significantIndices significantOf
    by_cases htrivia : token.isTrivia = true
    · rw [if_pos htrivia, List.filter_cons_of_neg (by rw [htrivia]; exact Bool.false_ne_true)]
      exact ih (first + 1) place hrest
    · rw [if_neg htrivia, List.filter_cons_of_pos (by simpa using htrivia)]
      cases place with
      | zero => exact hfirst
      | succ place => exact ih (first + 1) place hrest

/-- There is one index for each significant token. -/
theorem length_significantIndices (tokens : List LayoutToken) : ∀ first : Nat,
    (significantIndices first tokens).length = (significantOf tokens).length := by
  induction tokens with
  | nil => exact fun _ => rfl
  | cons token rest ih =>
    intro first
    unfold significantIndices significantOf
    by_cases htrivia : token.isTrivia = true
    · rw [if_pos htrivia, List.filter_cons_of_neg (by rw [htrivia]; exact Bool.false_ne_true)]
      exact ih (first + 1)
    · rw [if_neg htrivia, List.filter_cons_of_pos (by simpa using htrivia), List.length_cons,
        ih (first + 1)]
      rfl

/-- An input made of a layout shows its significant tokens, in order. -/
theorem get?_ofTokens (source : String) (tokens : List LayoutToken) (place : Nat) :
    (ofTokens source tokens).get? place = (significantOf tokens)[place]? := by
  have hindices := getElem?_significantIndices tokens tokens 0 place rfl
  unfold get? rawIndex? ofTokens
  simpa using hindices

theorem size_ofTokens (source : String) (tokens : List LayoutToken) :
    (ofTokens source tokens).size = (significantOf tokens).length := by
  unfold size ofTokens
  simpa using length_significantIndices tokens 0

-- ======================================================= open blocks

/-- Tokens of the source open and close nothing, so that only the significant tokens
count. -/
theorem foldl_significantOf (tokens : List LayoutToken) : ∀ blocks? : Option (List Position),
    (significantOf tokens).foldl openAfter? blocks? = tokens.foldl openAfter? blocks? := by
  induction tokens with
  | nil => exact fun _ => rfl
  | cons token rest ih =>
    intro blocks?
    unfold significantOf
    cases token with
    | raw token =>
      by_cases htrivia : (LayoutToken.raw token).isTrivia = true
      · rw [List.filter_cons_of_neg (by rw [htrivia]; exact Bool.false_ne_true)]
        exact ih blocks?
      · rw [List.filter_cons_of_pos (by simpa using htrivia)]
        exact ih blocks?
    | start | sep | stop => exact ih _

variable {input : Input}

/-- The significant tokens of an input. -/
def Holds (input : Input) (tokens : List LayoutToken) : Prop :=
  input.size = tokens.length ∧ ∀ place, input.get? place = tokens[place]?

/-- The kind at a place is that of the token there, and the end of the file where there is none. -/
theorem Holds.kindAt {tokens : List LayoutToken} (h : input.Holds tokens) (place : Nat) :
    input.kindAt place = (tokens[place]?.map LayoutToken.kind).getD .eof := by
  unfold Input.kindAt
  rw [h.2]

/-- A token that is listed, by its kind. -/
theorem Holds.token_of_kindAt {tokens : List LayoutToken} (h : input.Holds tokens) {place : Nat}
    (hkind : input.kindAt place ≠ .eof) :
    ∃ token, tokens[place]? = some token ∧ input.kindAt place = token.kind := by
  rw [h.kindAt] at hkind ⊢
  cases htoken : tokens[place]? with
  | none =>
    rw [htoken] at hkind
    exact absurd rfl hkind
  | some token => exact ⟨token, rfl, rfl⟩

/-- A kind that is not one of a written token is that of a virtual token. -/
theorem Holds.virtual_of_kindAt {tokens : List LayoutToken} (h : input.Holds tokens)
    (hwritten : ∀ token, .raw token ∈ tokens → token.kind.isWritten = true) {place : Nat}
    (hvirtual : (input.kindAt place).isWritten = false) (hkind : input.kindAt place ≠ .eof) :
    ∃ token, tokens[place]? = some token ∧ input.kindAt place = token.kind
      ∧ ∀ raw, token ≠ .raw raw := by
  obtain ⟨token, htoken, hsame⟩ := h.token_of_kindAt hkind
  refine ⟨token, htoken, hsame, ?_⟩
  rintro raw rfl
  rw [hsame, show (LayoutToken.raw raw).kind = raw.kind from rfl,
    hwritten raw (List.mem_of_getElem? htoken)] at hvirtual
  cases hvirtual

/-- An end closes the innermost open block. -/
theorem Holds.openBlocks?_behind_stop {tokens : List LayoutToken} (h : input.Holds tokens)
    (hwritten : ∀ token, .raw token ∈ tokens → token.kind.isWritten = true) {place : Nat}
    {block : Position} {outer : List Position} (hstop : input.kindAt place = .layoutEnd)
    (hopen : openBlocks? (tokens.take place) = some (block :: outer)) :
    openBlocks? (tokens.take (place + 1)) = some outer := by
  obtain ⟨token, htoken, hkind, hvirtual⟩ :=
    h.virtual_of_kindAt hwritten (by rw [hstop]; rfl) (by rw [hstop]; decide)
  rw [hstop] at hkind
  rw [List.take_add_one, openBlocks?_append, hopen, htoken]
  cases token with
  | stop => rfl
  | start | sep => cases hkind
  | raw token => exact absurd rfl (hvirtual token)

/-- Where a block is open, whole trees lead on to the end that closes it. -/
theorem exists_stop {tokens : List LayoutToken} (h : input.Holds tokens)
    (hwritten : ∀ token, .raw token ∈ tokens → token.kind.isWritten = true)
    (hclosed : openBlocks? tokens = some []) (fuel : Nat) :
    ∀ (place : Nat) (block : Position) (outer : List Position), tokens.length - place ≤ fuel →
      openBlocks? (tokens.take place) = some (block :: outer) →
      ∃ stop, Trees input anyRoot place stop ∧ input.kindAt stop = .layoutEnd
        ∧ openBlocks? (tokens.take stop) = some (block :: outer) := by
  -- the trees in a block and those behind it start at later places, so the fuel is a
  -- bound on the tokens that are left
  induction fuel with
  | zero =>
    intro place block outer hfuel hopen
    rw [List.take_of_length_le (by omega), hclosed] at hopen
    cases hopen
  | succ fuel ih =>
    intro place block outer hfuel hopen
    cases htoken : tokens[place]? with
    | none =>
      rw [List.take_of_length_le (List.getElem?_eq_none_iff.mp htoken), hclosed] at hopen
      cases hopen
    | some token =>
      have hlt : place < tokens.length := (List.getElem?_eq_some_iff.mp htoken).1
      have hkind : input.kindAt place = token.kind := by
        rw [h.kindAt, htoken]
        rfl
      have hnext : openBlocks? (tokens.take (place + 1))
          = openAfter? (some (block :: outer)) token := by
        rw [List.take_add_one, htoken, openBlocks?_append, hopen]
        rfl
      have inside : place < input.size := h.1 ▸ hlt
      cases token with
      | start start =>
        obtain ⟨inner, hbody, hinner, hsame⟩ :=
          ih (place + 1) start (block :: outer) (by omega) hnext
        have hinnerLt : inner < tokens.length := by
          rw [← h.1]
          exact lt_size_of_stop hinner
        have hafter : openBlocks? (tokens.take (inner + 1)) = some (block :: outer) :=
          h.openBlocks?_behind_stop hwritten hinner hsame
        have hle := hbody.first_le
        obtain ⟨stop, hrest, hstop, hopenStop⟩ :=
          ih (inner + 1) block outer (by omega) hafter
        exact ⟨stop, .block rfl hkind hbody hinner hrest, hstop, hopenStop⟩
      | stop => exact ⟨place, .nil _ _, hkind, hopen⟩
      | sep =>
        obtain ⟨stop, hrest, hstop⟩ := ih (place + 1) block outer (by omega) hnext
        exact ⟨stop, .token inside rfl (by rw [hkind]; rfl) hrest, hstop⟩
      | raw token =>
        obtain ⟨stop, hrest, hstop⟩ := ih (place + 1) block outer (by omega) hnext
        have hraw : token.kind.isWritten = true := hwritten token (List.mem_of_getElem? htoken)
        refine ⟨stop, .token inside rfl ?_ hrest, hstop⟩
        rw [hkind]
        show token.kind.isBracket = false
        exact TokenKind.isBracket_of_isWritten hraw

-- ====================================================== the guarantees

/-- Tokens in a row may stand in a row. -/
theorem mayPrecede_of_isChain {tokens : List LayoutToken}
    (h : tokens.IsChain LayoutToken.MayPrecede) {place : Nat} {older newer : LayoutToken}
    (holder : tokens[place]? = some older) (hnewer : tokens[place + 1]? = some newer) :
    older.MayPrecede newer := by
  obtain ⟨hlt, rfl⟩ := List.getElem?_eq_some_iff.mp hnewer
  obtain ⟨_, rfl⟩ := List.getElem?_eq_some_iff.mp holder
  exact List.isChain_iff_getElem.mp h place hlt

namespace Holds

variable {tokens : List LayoutToken} {place : Nat} (h : input.Holds tokens)
  (hwritten : ∀ token, .raw token ∈ tokens → token.kind.isWritten = true)

include h hwritten

/-- No token has the kind of the end. -/
theorem kindAt_ne_eof (hinside : place < input.size) : input.kindAt place ≠ .eof := by
  intro heof
  rw [h.1] at hinside
  have htoken := List.getElem?_eq_getElem hinside
  rw [h.kindAt, htoken] at heof
  generalize tokens[place] = token at heof htoken
  cases token with
  | start | sep | stop => cases heof
  | raw token =>
    have hraw := hwritten token (List.mem_of_getElem? htoken)
    rw [show token.kind = .eof from heof] at hraw
    cases hraw

/-- A token with a text is written. -/
theorem isWritten_of_textAt (htext : input.textAt place ≠ "") :
    (input.kindAt place).isWritten = true := by
  unfold textAt at htext
  rw [h.2] at htext
  rw [h.kindAt]
  cases htoken : tokens[place]? with
  | none =>
    rw [htoken] at htext
    exact absurd rfl htext
  | some token =>
    rw [htoken] at htext
    cases token with
    | start | sep | stop => exact absurd rfl htext
    | raw token => exact hwritten token (List.mem_of_getElem? htoken)

/-- Behind a separator stands a written token. -/
theorem isWritten_behind_sep (hshaped : tokens.IsChain LayoutToken.MayPrecede)
    (hlast : ∀ sep, tokens.getLast? ≠ some (.sep sep)) (hsep : input.kindAt place = .layoutSep) :
    (input.kindAt (place + 1)).isWritten = true := by
  obtain ⟨token, htoken, hkind, hvirtual⟩ :=
    h.virtual_of_kindAt hwritten (by rw [hsep]; rfl) (by rw [hsep]; decide)
  rw [hsep] at hkind
  cases token with
  | start | stop => cases hkind
  | raw token => exact absurd rfl (hvirtual token)
  | sep sep =>
    rw [h.kindAt]
    cases hnext : tokens[place + 1]? with
    | none =>
      have hlength : tokens.length = place + 1 := by
        have hle := List.getElem?_eq_none_iff.mp hnext
        have hlt := (List.getElem?_eq_some_iff.mp htoken).1
        omega
      refine absurd ?_ (hlast sep)
      rw [List.getLast?_eq_getElem?, hlength]
      exact htoken
    | some next =>
      have hrow := mayPrecede_of_isChain hshaped htoken hnext
      cases next with
      | start | sep | stop => cases hrow
      | raw token => exact hwritten token (List.mem_of_getElem? hnext)

/-- Behind a start stands no separator. -/
theorem kindAt_behind_start (hshaped : tokens.IsChain LayoutToken.MayPrecede)
    (hstart : input.kindAt place = .layoutStart) : input.kindAt (place + 1) ≠ .layoutSep := by
  intro hsep
  obtain ⟨token, htoken, hkind, hvirtual⟩ :=
    h.virtual_of_kindAt hwritten (by rw [hstart]; rfl) (by rw [hstart]; decide)
  obtain ⟨next, hnext, hnextKind, hnextVirtual⟩ :=
    h.virtual_of_kindAt hwritten (by rw [hsep]; rfl) (by rw [hsep]; decide)
  have hrow := mayPrecede_of_isChain hshaped htoken hnext
  rw [hstart] at hkind
  rw [hsep] at hnextKind
  cases token with
  | sep | stop => cases hkind
  | raw token => exact hvirtual token rfl
  | start start =>
    cases next with
    | start | stop => cases hnextKind
    | sep => exact hrow
    | raw token => exact hnextVirtual token rfl

/-- Every start has its end. -/
theorem exists_closes (hclosed : openBlocks? tokens = some [])
    (hstart : input.kindAt place = .layoutStart) : ∃ stop, input.Closes place stop := by
  obtain ⟨token, htoken, hkind, hvirtual⟩ :=
    h.virtual_of_kindAt hwritten (by rw [hstart]; rfl) (by rw [hstart]; decide)
  rw [hstart] at hkind
  have hsplit : tokens.take (place + 1) = tokens.take place ++ [token] := by
    rw [List.take_add_one, htoken]
    rfl
  obtain ⟨outer, houter⟩ := openBlocks?_front
    ((congrArg openBlocks? (List.take_append_drop place tokens)).trans hclosed)
  cases token with
  | sep | stop => cases hkind
  | raw token => exact absurd rfl (hvirtual token)
  | start start =>
    have hopen : openBlocks? (tokens.take (place + 1)) = some (start :: outer) := by
      rw [hsplit, openBlocks?_append, houter]
      rfl
    obtain ⟨stop, hbody, hstop, _⟩ :=
      exists_stop h hwritten hclosed tokens.length (place + 1) start outer (by omega) hopen
    exact ⟨stop, hstart, hbody, hstop⟩

/-- A balanced layout whose neighbours fit, with no separator last, gives all the guarantees. -/
theorem laid (hclosed : openBlocks? tokens = some [])
    (hshaped : tokens.IsChain LayoutToken.MayPrecede)
    (hlast : ∀ sep, tokens.getLast? ≠ some (.sep sep)) : input.Laid where
  inside _ := h.kindAt_ne_eof hwritten
  text_written _ := h.isWritten_of_textAt hwritten
  sep_next _ := h.isWritten_behind_sep hwritten hshaped hlast
  start_next _ := h.kindAt_behind_start hwritten hshaped
  closes _ := h.exists_closes hwritten hclosed

end Holds

/-- Every layout of written tokens has the guarantees. -/
theorem laid_ofTokens (source : String) (rules : Rules) {tokens : List Token} (eof : Position)
    (hwritten : ∀ token ∈ tokens, token.kind.isWritten = true) :
    (ofTokens source (tokensOf rules tokens eof)).Laid := by
  obtain ⟨hshaped, hlast⟩ := tokensOf_shaped rules tokens eof
  refine Holds.laid ⟨size_ofTokens _ _, get?_ofTokens _ _⟩ ?_ ?_ hshaped hlast
  · intro token hmem
    have hcontent : token ∈ content (tokensOf rules tokens eof) :=
      List.mem_filterMap.mpr ⟨.raw token, (List.mem_filter.mp hmem).1, rfl⟩
    rw [content_tokensOf] at hcontent
    exact hwritten token hcontent
  · exact (foldl_significantOf _ _).trans (openBlocks?_tokensOf rules tokens eof)

end Offside.Input
