import Offside.Token.Reading
import Offside.Proofs.Source.Position
import Offside.Proofs.Token.Lexeme

/-!
Reading a source text loses nothing, and every position is exact.

# The invariant

The reader goes through the text with a position in hand. `Reading.Covers`
says what it leaves behind: tokens that each hold the characters from one
boundary of the text to a later one (`Token.Holds`), without a gap. The step
is `holds_first`: the lexeme that starts at a boundary has at least one
character and none past the end, and moving the position over it arrives at
the exact position of its end. The run is `readFrom_covers`, by induction on
the text that is left.

# What this gives

`ofSource_exact` reads everything off the cover: the tokens tile the text,
their texts in a row are the source, and each boundary carries the line and
the column that the text itself gives it. `ofSource_lossless` adds that words of 32
bits hold these numbers.
-/

namespace Offside

open Text

/-- The position stands at a boundary between two characters of a text, with the
line and the column that this boundary has. -/
structure Position.IsExact (p : Position) (source : String) : Prop where
  boundary : (⟨p.offset⟩ : String.Pos.Raw).IsValid source
  coordinates : ∃ count, count ≤ source.toList.length ∧ p = .after source.toList count

/-- The tokens cover the stretch between two positions: the first starts at
`first`, each one starts where the one before it ends, and the last ends at
`last`. -/
def Token.Tile (first : Position) : List Token → Position → Prop
  | [], last => first = last
  | token :: rest, last => token.start = first ∧ Tile token.stop rest last

/-- The token holds the characters of a text from one boundary up to another, at
least one, and the line and the column increase from its start to its end. -/
structure Token.Holds (token : Token) (chars : List Char) (first last : Nat) : Prop where
  nonempty : first < last
  inside : last ≤ chars.length
  start_eq : token.start = .after chars first
  stop_eq : token.stop = .after chars last
  increasing : token.start.compare token.stop = .lt

namespace Position

/-- A position that is counted over some characters of a text is exact, as the characters are
the text in front of it. -/
theorem isExact_after {chars : List Char} {count : Nat} (h : count ≤ chars.length) :
    (after chars count).IsExact (String.ofList chars) := by
  constructor
  · have hvalid := isValid_byteLength (chars.take count) (chars.drop count)
    rwa [List.take_append_drop] at hvalid
  · exact ⟨count, by rwa [String.toList_ofList], by rw [String.toList_ofList]⟩

end Position

namespace Token

/-- The tokens in front of one of them cover the stretch up to it. -/
theorem Tile.before {before after : List Token} {token : Token} {last : Position} :
    ∀ {first : Position}, Tile first (before ++ token :: after) last →
      Tile first before token.start := by
  induction before with
  | nil => exact fun h => h.1.symm
  | cons earlier before ih => exact fun h => ⟨h.1, ih h.2⟩

variable {token : Token} {chars : List Char} {first last : Nat}

/-- The text of a token is what was read between its boundaries. -/
theorem Holds.text_eq (h : token.Holds chars first last) :
    token.text (String.ofList chars) = String.ofList ((chars.drop first).take (last - first)) := by
  unfold Token.text Token.span
  rw [h.start_eq, h.stop_eq]
  exact slice_take chars (Nat.le_of_lt h.nonempty)

end Token

namespace Reading

/-- The tokens hold the characters of a text from a boundary on, without a gap. -/
inductive Covers (chars : List Char) : Nat → List Token → Prop
  | done : Covers chars chars.length []
  | token {token : Token} {rest : List Token} {first last : Nat}
      (holds : token.Holds chars first last) (covers : Covers chars last rest) :
      Covers chars first (token :: rest)

/-- Reading a lexeme increases the line or the column. Only a carriage return with
its line feed has a first character that moves neither, and that lexeme takes
both. -/
theorem compare_advanceOver_first (p : Position) (c : Char) (rest : List Char) :
    p.compare (p.advanceOver (Lexeme.first c rest).length (c :: rest)) = .lt := by
  by_cases hpair : c = '\r' ∧ rest.head? = some '\n'
  · obtain ⟨rfl, hfeed⟩ := hpair
    cases rest with
    | nil => cases hfeed
    | cons d rest =>
      cases hfeed
      have htwo : (Lexeme.first '\r' ('\n' :: rest)).length = 2 := rfl
      rw [htwo, Position.advanceOver, Position.advanceOver]
      have hreturn := p.notAfter_advance '\r' (some '\n')
      have hfeed : (p.advance '\r' (some '\n')).compare
          ((p.advance '\r' (some '\n')).advance '\n' rest.head?) = .lt :=
        Position.compare_advance (by simp)
      have hlt := Position.compare_of_notAfter_of_lt hreturn hfeed
      exact Position.compare_of_lt_of_notAfter hlt (Position.notAfter_advanceOver ..)
  · obtain ⟨more, hmore⟩ := Nat.exists_eq_add_of_le' (Lexeme.first_fits c rest).1
    rw [hmore, Position.advanceOver]
    exact Position.compare_of_lt_of_notAfter (Position.compare_advance hpair)
      (Position.notAfter_advanceOver ..)

/-- The lexeme that starts at a boundary ends at one further on, and the reader
moves from one to the other. -/
theorem holds_first {chars : List Char} {count : Nat} {c : Char} {rest : List Char}
    (h : chars.drop count = c :: rest) :
    let lexeme := Lexeme.first c rest
    let start := Position.after chars count
    Token.Holds ⟨lexeme.kind, start, start.advanceOver lexeme.length (c :: rest)⟩ chars count
      (count + lexeme.length) := by
  intro lexeme start
  have hfits : lexeme.Fits (c :: rest) := Lexeme.first_fits c rest
  have hlength : (c :: rest).length = chars.length - count := by
    rw [← h, List.length_drop]
  have hinside : count + lexeme.length ≤ chars.length := by
    have hpos := hfits.1
    have hle := hfits.2
    omega
  refine ⟨Nat.lt_add_of_pos_right hfits.1, hinside, rfl, ?_, ?_⟩
  · show start.advanceOver lexeme.length (c :: rest) = _
    rw [← h]
    exact Position.after_add lexeme.length hinside
  · exact compare_advanceOver_first start c rest

/-- What is left of the text behind the lexeme that starts at a boundary. -/
theorem drop_first {chars : List Char} {count : Nat} {c : Char} {rest : List Char}
    (h : chars.drop count = c :: rest) :
    chars.drop (count + (Lexeme.first c rest).length)
      = rest.drop ((Lexeme.first c rest).length - 1) := by
  have hpos : 1 ≤ (Lexeme.first c rest).length := (Lexeme.first_fits c rest).1
  rw [← List.drop_drop, h, ← Nat.sub_add_cancel hpos, List.drop_succ_cons, Nat.add_sub_cancel]

/-- Reading on from a boundary covers the text from there, and ends at its end. -/
theorem readFrom_covers {source : List Char} (position : Position) (chars : List Char) :
    ∀ {count : Nat}, count ≤ source.length → position = .after source count →
      source.drop count = chars →
      Covers source count (readFrom position chars).tokens
        ∧ (readFrom position chars).eof = .after source source.length := by
  fun_induction readFrom position chars with
  | case1 position =>
    intro count hle hposition hdrop
    have hcount : count = source.length :=
      Nat.le_antisymm hle (List.drop_eq_nil_iff.mp hdrop)
    subst hcount
    exact ⟨.done, hposition⟩
  | @case2 position c rest lexeme stop ih =>
    intro count hle hposition hdrop
    subst hposition
    have hholds := holds_first hdrop
    obtain ⟨hcovers, heof⟩ := ih hholds.inside hholds.stop_eq (drop_first hdrop)
    exact ⟨.token hholds hcovers, heof⟩

-- ============================================ what covering a text gives

variable {chars : List Char} {first : Nat} {tokens : List Token}

/-- Tokens that cover the characters from some place on tile the text from there. -/
theorem Covers.tile (h : Covers chars first tokens) :
    Token.Tile (.after chars first) tokens (.after chars chars.length) := by
  induction h with
  | done => rfl
  | token holds _ ih => exact ⟨holds.start_eq, holds.stop_eq ▸ ih⟩

/-- Each of the tokens is held by a stretch of the characters. -/
theorem Covers.holds (h : Covers chars first tokens) :
    ∀ token ∈ tokens, ∃ start stop, token.Holds chars start stop := by
  induction h with
  | done =>
    intro token hmem
    cases hmem
  | token holds _ ih =>
    intro token hmem
    rcases List.mem_cons.mp hmem with rfl | hrest
    · exact ⟨_, _, holds⟩
    · exact ih token hrest

/-- The texts of the tokens in a row are the text that they cover. -/
theorem Covers.join_text (h : Covers chars first tokens) :
    String.join (tokens.map (·.text (String.ofList chars))) = String.ofList (chars.drop first) := by
  induction h with
  | done =>
    rw [List.drop_length]
    rfl
  | @token token rest first last holds _ ih =>
    have hdrop : (chars.drop first).drop (last - first) = chars.drop last := by
      rw [List.drop_drop, Nat.add_sub_cancel' (Nat.le_of_lt holds.nonempty)]
    rw [List.map_cons, String.join_cons, ih, holds.text_eq, ← String.ofList_append, ← hdrop,
      List.take_append_drop]

/-- The reading of a text covers all of it. -/
theorem ofSource_covers (source : String) :
    Covers source.toList 0 (ofSource source).tokens
      ∧ (ofSource source).eof = .after source.toList source.toList.length :=
  readFrom_covers .start source.toList (Nat.zero_le _) rfl rfl

/-- No token of a text is empty. -/
theorem offset_lt_ofSource (source : String) :
    ∀ token ∈ (ofSource source).tokens, token.start.offset < token.stop.offset := by
  intro token hmem
  obtain ⟨start, stop, hholds⟩ := (ofSource_covers source).1.holds token hmem
  rw [hholds.start_eq, hholds.stop_eq]
  exact Position.offset_after_lt hholds.nonempty hholds.inside

/-- The tokens of a source text cover it without gaps, and their positions are counted
without a bound. -/
theorem ofSource_exact (source : String) :
    Token.Tile .start (ofSource source).tokens (ofSource source).eof
      ∧ (ofSource source).eof.offset = source.utf8ByteSize
      ∧ (∀ token ∈ (ofSource source).tokens,
          token.start.offset < token.stop.offset
            ∧ token.start.compare token.stop = .lt
            ∧ token.start.IsExact source ∧ token.stop.IsExact source)
      ∧ (ofSource source).eof.IsExact source
      ∧ String.join ((ofSource source).tokens.map (·.text source)) = source := by
  obtain ⟨hcovers, heof⟩ := ofSource_covers source
  have hsource : String.ofList source.toList = source := String.ofList_toList
  refine ⟨?_, ?_, ?_, ?_, ?_⟩
  · have htile := hcovers.tile
    rwa [← heof, Position.after_zero] at htile
  · show (ofSource source).eof.offset = _
    rw [heof, Position.offset_after_length, byteLength, hsource]
  · intro token hmem
    obtain ⟨start, stop, hholds⟩ := hcovers.holds token hmem
    have hstart := Position.isExact_after (Nat.le_of_lt (Nat.lt_of_lt_of_le hholds.nonempty
      hholds.inside))
    have hstop := Position.isExact_after hholds.inside
    have hbytes := Position.offset_after_lt hholds.nonempty hholds.inside
    rw [hsource, ← hholds.start_eq] at hstart
    rw [hsource, ← hholds.stop_eq] at hstop
    rw [← hholds.start_eq, ← hholds.stop_eq] at hbytes
    exact ⟨hbytes, hholds.increasing, hstart, hstop⟩
  · have hend := Position.isExact_after (Nat.le_refl source.toList.length)
    rwa [hsource, ← heof] at hend
  · have hjoin := hcovers.join_text
    rwa [hsource, List.drop_zero, hsource] at hjoin

/-- The bound on the bytes is sharp: with one more, all of them letters of a line, the end
is in a column that no word of 32 bits holds. -/
theorem fits_eof_sharp :
    ∃ source : String, source.utf8ByteSize + 1 = UInt32.size ∧ ¬(ofSource source).eof.Fits := by
  obtain ⟨count, hcount⟩ : ∃ count, count + 1 = UInt32.size := ⟨UInt32.size - 1, rfl⟩
  have hsize : ∀ more, byteLength (List.replicate more 'a') = more := by
    intro more
    induction more with
    | zero => rfl
    | succ more ih =>
      rw [List.replicate_succ, byteLength_cons, ih]
      exact Nat.add_comm 1 more
  refine ⟨String.ofList (List.replicate count 'a'), ?_, fun hfits => ?_⟩
  · show byteLength (List.replicate count 'a') + 1 = UInt32.size
    rw [hsize, hcount]
  · have hline : ∀ c ∈ List.replicate count 'a', c ≠ '\n' ∧ c ≠ '\r' := by
      intro c hc
      rw [List.eq_of_mem_replicate hc]
      decide
    have hcolumn := hfits.column_lt
    rw [(ofSource_covers _).2, String.toList_ofList, Position.column_after_line hline,
      List.length_replicate] at hcolumn
    omega

end Reading

end Offside
