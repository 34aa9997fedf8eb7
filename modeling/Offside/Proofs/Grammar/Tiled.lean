import Offside.Grammar.Input
import Offside.Proofs.Layout.Tiling

/-!
Inputs whose tokens cover the source.

A parse reads the tokens of a source text, as they are or laid out by some rules
(`Input.ofSource`). Either way they cover the text from its start to its end, none ends
in front of its start, and each starts and ends at an exact position (`Input.Tiled`): a
virtual token lies where the one in front of it ends.
-/

namespace Offside.Input

/-- The input of a source text: its tokens as they are read, or laid out by rules. -/
def ofSource (layout : Option Layout.Rules) (source : String) : Input :=
  let reading := Reading.ofSource source
  match layout with
  | none => .ofTokens source (reading.tokens.map .raw)
  | some rules => .ofTokens source (Layout.tokensOf rules reading.tokens reading.eof)

/-- The tokens of the input cover its source. -/
structure Tiled (input : Input) (last : Position) : Prop where
  tile : LayoutToken.Tile .start input.tokens.toList last
  last_eq : last.offset = input.endOffset
  width : ∀ token ∈ input.tokens.toList, token.position.offset ≤ token.finish.offset
  exact : ∀ token ∈ input.tokens.toList,
    token.position.IsExact input.source ∧ token.finish.IsExact input.source

/-- Tokens cover what they cover, also among virtual ones. -/
theorem tile_map_raw {tokens : List Token} : ∀ {first last : Position},
    Token.Tile first tokens last → LayoutToken.Tile first (tokens.map .raw) last := by
  induction tokens with
  | nil => exact id
  | cons token rest ih => exact fun h => ⟨h.1, ih h.2⟩

/-- Tokens that cover a stretch from an exact position on are at exact positions, if
those of the source among them end at such. -/
theorem exact_of_tile {source : String} {tokens : List LayoutToken}
    (hraw : ∀ token, .raw token ∈ tokens → token.stop.IsExact source) :
    ∀ {first last : Position}, LayoutToken.Tile first tokens last → first.IsExact source →
      ∀ token ∈ tokens, token.position.IsExact source ∧ token.finish.IsExact source := by
  induction tokens with
  | nil => exact fun _ _ => nofun
  | cons token rest ih =>
    intro first last htile hfirst
    obtain ⟨rfl, hrest⟩ := htile
    have hfinish : token.finish.IsExact source := by
      cases token with
      | start | sep | stop => exact hfirst
      | raw token => exact hraw token List.mem_cons_self
    intro found hfound
    rcases List.mem_cons.mp hfound with rfl | hlater
    · exact ⟨hfirst, hfinish⟩
    · exact ih (fun token hmem => hraw token (List.mem_cons_of_mem _ hmem)) hrest hfinish
        found hlater

theorem isExact_start (source : String) : Position.start.IsExact source := by
  have hstart := Position.isExact_after (Nat.zero_le source.toList.length)
  rwa [Position.after_zero, String.ofList_toList] at hstart

/-- The tokens of a source text cover it, laid out or not. -/
theorem tiled_ofSource (layout : Option Layout.Rules) (source : String) :
    (ofSource layout source).Tiled (Reading.ofSource source).eof := by
  obtain ⟨htile, heof, htokens, _⟩ := Reading.ofSource_exact source
  have hwidth : ∀ token ∈ (Reading.ofSource source).tokens,
      token.start.offset < token.stop.offset := fun token hmem => (htokens token hmem).1
  have hstop : ∀ token ∈ (Reading.ofSource source).tokens, token.stop.IsExact source :=
    fun token hmem => (htokens token hmem).2.2.2
  cases layout with
  | none =>
    have hraw := tile_map_raw htile
    refine ⟨hraw, heof, fun token hmem => ?_, exact_of_tile ?_ hraw (isExact_start source)⟩
    · obtain ⟨raw, hraw, rfl⟩ := List.mem_map.mp hmem
      exact Nat.le_of_lt (hwidth raw hraw)
    · intro token hmem
      obtain ⟨_, hraw, ⟨⟩⟩ := List.mem_map.mp hmem
      exact hstop token hraw
  | some rules =>
    have hlaid := Layout.tile_layout rules source
    refine ⟨hlaid, heof, Layout.position_le_finish rules _ hwidth,
      exact_of_tile ?_ hlaid (isExact_start source)⟩
    intro token hmem
    have hcontent : token ∈ Layout.content (Layout.tokensOf rules (Reading.ofSource source).tokens
        (Reading.ofSource source).eof) := List.mem_filterMap.mpr ⟨_, hmem, rfl⟩
    rw [Layout.content_tokensOf] at hcontent
    exact hstop token hcontent

end Offside.Input
