import Offside.Diagnostic.Terminal
import Offside.Proofs.Diagnostic.Bisection
import Offside.Proofs.Token.Reading

/-!
The line table against the positions of the reader.

The reader counts lines as it goes, and ends one at a line feed, at a carriage return
with its line feed, and at a carriage return alone. The line table is built from the
line feeds only. So where a carriage return has no line feed behind it, the reader is a
line further than the table; and between a carriage return and its line feed the reader
has not moved to a new column, but the table counts the carriage return.

These are the only differences (`position_after_eq_iff`): at a boundary of a text the
table gives the position of the reader if and only if, in the text before the boundary,
every carriage return has its line feed behind it (`Text.ReturnsFeed`).

# The counts

Both positions are counted from the text. `Position.after` is the one of the reader.
What the table finds is shown to be the number of line feeds before the boundary
(`lineOf_byteLength`), the boundary behind the last of them (`lineStart?_succ`), and the
characters since then (`position_byteLength`).
-/

namespace Offside

open Text

-- ========================================================= line feeds

/-- Whether the character at an index is a line feed. -/
def Text.feeds (chars : List Char) (index : Nat) : Bool := chars[index]? == some '\n'

/-- The number of line feeds among the first `count` characters. -/
def Text.feedsBefore (chars : List Char) (count : Nat) : Nat :=
  (List.range count).countP (feeds chars)

/-- The boundary behind the last line feed among the first `count` characters. -/
def Text.behindFeed (chars : List Char) : Nat → Nat
  | 0 => 0
  | count + 1 => if feeds chars count then count + 1 else behindFeed chars count

/-- Every carriage return of a text has its line feed behind it. -/
def Text.ReturnsFeed (chars : List Char) : Prop :=
  ∀ index, chars[index]? = some '\r' → chars[index + 1]? = some '\n'

namespace Text

variable {chars : List Char} {count index : Nat}

/-- A line starts at or before the boundaries on it. -/
theorem behindFeed_le (chars : List Char) (count : Nat) : behindFeed chars count ≤ count := by
  induction count with
  | zero => exact Nat.le_refl 0
  | succ count ih =>
    unfold behindFeed
    split
    · exact Nat.le_refl _
    · exact Nat.le_succ_of_le ih

/-- A line feed stands in front of the boundary behind the last. -/
theorem lt_behindFeed (hfeeds : feeds chars index = true) (hlt : index < count) :
    index < behindFeed chars count := by
  induction count with
  | zero => exact absurd hlt (Nat.not_lt_zero index)
  | succ count ih =>
    unfold behindFeed
    split
    case isTrue => exact hlt
    case isFalse hnot =>
      refine ih (Nat.lt_of_le_of_ne (Nat.le_of_lt_succ hlt) ?_)
      rintro rfl
      exact hnot hfeeds

/-- Only a line feed right before the boundary puts the start of the line there. -/
theorem behindFeed_lt (hnot : feeds chars index = false) :
    behindFeed chars (index + 1) ≤ index := by
  unfold behindFeed
  rw [hnot]
  exact behindFeed_le chars index

theorem feedsBefore_succ (chars : List Char) (count : Nat) :
    feedsBefore chars (count + 1)
      = feedsBefore chars count + if feeds chars count then 1 else 0 := by
  unfold feedsBefore
  rw [List.range_succ, List.countP_append, List.countP_singleton]

/-- With one character more in front. -/
theorem feedsBefore_cons (c : Char) (rest : List Char) (count : Nat) :
    feedsBefore (c :: rest) (count + 1)
      = (if c = '\n' then 1 else 0) + feedsBefore rest count := by
  unfold feedsBefore
  rw [List.range_succ_eq_map, List.countP_cons, List.countP_map, Nat.add_comm]
  congr 1
  by_cases hfeed : c = '\n'
  · simp [feeds, hfeed]
  · simp [feeds, hfeed]

end Text

-- ====================================================== the line table

namespace LineTable

variable {chars : List Char} {count : Nat}

theorem startsAfter_cons (offset : Nat) (c : Char) (rest : List Char) :
    startsAfter offset (c :: rest) = if c = '\n' then
      (offset + c.utf8Size) :: startsAfter (offset + c.utf8Size) rest
      else startsAfter (offset + c.utf8Size) rest := rfl

/-- Each start is behind some line feed, so it is greater than the offset where the characters
begin. -/
theorem lt_of_mem_startsAfter {chars : List Char} : ∀ {offset start : Nat},
    start ∈ startsAfter offset chars → offset < start := by
  induction chars with
  | nil => exact nofun
  | cons c rest ih =>
    intro offset start hmem
    have hsize := c.utf8Size_pos
    rw [startsAfter_cons] at hmem
    split at hmem
    · rcases List.mem_cons.mp hmem with rfl | hmem
      · omega
      · have := ih hmem
        omega
    · have := ih hmem
      omega

/-- The starts of a table increase. -/
theorem pairwise_starts (source : String) : (build source).starts.Pairwise (· < ·) := by
  have hafter : ∀ (chars : List Char) (offset : Nat),
      (startsAfter offset chars).Pairwise (· < ·) := by
    intro chars
    induction chars with
    | nil => exact fun _ => .nil
    | cons c rest ih =>
      intro offset
      rw [startsAfter_cons]
      split
      · exact List.pairwise_cons.mpr ⟨fun _ => lt_of_mem_startsAfter, ih _⟩
      · exact ih _
  exact List.pairwise_cons.mpr ⟨fun _ => lt_of_mem_startsAfter, hafter _ _⟩

/-- The line of an offset is the number of lines that start at or before it. -/
theorem lineOf_build (source : String) (offset : Nat) :
    (build source).lineOf offset = (build source).starts.countP (· ≤ offset) :=
  lineOf_eq_countP (pairwise_starts source) rfl

/-- As many lines start up to a boundary as line feeds stand before it. -/
theorem countP_startsAfter (chars : List Char) : ∀ (offset count : Nat),
    (startsAfter offset chars).countP (· ≤ offset + byteLength (chars.take count))
      = feedsBefore chars (min count chars.length) := by
  induction chars with
  | nil =>
    intro offset count
    simp [startsAfter, feedsBefore]
  | cons c rest ih =>
    intro offset count
    cases count with
    | zero =>
      rw [List.take_zero, byteLength_nil, Nat.zero_min]
      refine List.countP_eq_zero.mpr fun start hmem => ?_
      have := lt_of_mem_startsAfter hmem
      simpa using this
    | succ count =>
      have hbytes : offset + byteLength ((c :: rest).take (count + 1))
          = offset + c.utf8Size + byteLength (rest.take count) := by
        rw [List.take_succ_cons, byteLength_cons, Nat.add_assoc]
      have hlength : min (count + 1) (c :: rest).length = min count rest.length + 1 := by
        rw [List.length_cons]
        omega
      rw [hbytes, hlength, feedsBefore_cons, ← ih (offset + c.utf8Size) count, startsAfter_cons]
      split
      · rw [List.countP_cons, if_pos (by simp), Nat.add_comm]
      · rw [Nat.zero_add]

/-- The line that the table finds for a boundary. -/
theorem lineOf_byteLength (h : count ≤ chars.length) :
    (build (String.ofList chars)).lineOf (byteLength (chars.take count))
      = 1 + feedsBefore chars count := by
  have hcount := countP_startsAfter chars 0 count
  rw [Nat.zero_add, Nat.min_eq_left h] at hcount
  rw [lineOf_build]
  unfold build
  rw [String.toList_ofList, List.countP_cons, hcount, if_pos (by simp), Nat.add_comm]

/-- The start that a line feed adds to the table. -/
theorem getElem?_startsAfter (chars : List Char) : ∀ (offset : Nat) {index : Nat},
    feeds chars index = true →
      (startsAfter offset chars)[feedsBefore chars index]?
        = some (offset + byteLength (chars.take (index + 1))) := by
  induction chars with
  | nil =>
    intro offset index hfeeds
    simp [feeds] at hfeeds
  | cons c rest ih =>
    intro offset index hfeeds
    cases index with
    | zero =>
      obtain rfl : c = '\n' := by simpa [feeds] using hfeeds
      simp [startsAfter, feedsBefore]
    | succ index =>
      have hrest : feeds rest index = true := hfeeds
      rw [feedsBefore_cons, List.take_succ_cons, byteLength_cons, ← Nat.add_assoc,
        ← ih (offset + c.utf8Size) hrest, startsAfter_cons]
      split
      · rw [Nat.add_comm 1, List.getElem?_cons_succ]
      · rw [Nat.zero_add]

/-- The start of the line that holds a boundary is the boundary behind the last line
feed. -/
theorem lineStart?_succ (chars : List Char) (count : Nat) :
    (build (String.ofList chars)).lineStart? (1 + feedsBefore chars count)
      = some (byteLength (chars.take (behindFeed chars count))) := by
  rw [Nat.add_comm]
  show (build (String.ofList chars)).starts[feedsBefore chars count]? = _
  unfold build
  rw [String.toList_ofList]
  induction count with
  | zero => simp [feedsBefore, behindFeed]
  | succ count ih =>
    rw [feedsBefore_succ]
    unfold behindFeed
    split
    case isTrue hfeeds =>
      rw [List.getElem?_cons_succ, getElem?_startsAfter chars 0 hfeeds, Nat.zero_add]
    case isFalse =>
      exact ih

/-- The position that the table gives for a boundary. -/
theorem position_byteLength (h : count ≤ chars.length) :
    (build (String.ofList chars)).position (String.ofList chars) (byteLength (chars.take count))
      = ⟨1 + feedsBefore chars count, 1 + (count - behindFeed chars count),
          byteLength (chars.take count)⟩ := by
  have hstart := behindFeed_le chars count
  have hinside : byteLength (chars.take count) ≤ (String.ofList chars).utf8ByteSize := by
    have hsplit := congrArg byteLength (List.take_append_drop count chars)
    rw [byteLength_append] at hsplit
    show _ ≤ byteLength chars
    omega
  unfold position lineColumn
  rw [lineOf_byteLength h]
  dsimp only
  rw [lineStart?_succ, Option.getD_some, Nat.min_eq_left hinside, slice_take chars hstart,
    String.length_ofList, List.length_take, List.length_drop, Nat.add_comm _ 1]
  congr 2
  omega

/-- Words of 32 bits hold that position if its offset is not the last that they hold. -/
theorem fits_position_byteLength (h : count ≤ chars.length)
    (hoffset : byteLength (chars.take count) + 1 < UInt32.size) :
    ((build (String.ofList chars)).position (String.ofList chars)
      (byteLength (chars.take count))).Fits := by
  have hbytes := le_byteLength_take h
  have hfeeds : feedsBefore chars count ≤ (List.range count).length := List.countP_le_length
  rw [List.length_range] at hfeeds
  have hline : 1 + feedsBefore chars count < UInt32.size := by omega
  have hcolumn : 1 + (count - behindFeed chars count) < UInt32.size := by omega
  rw [position_byteLength h]
  exact ⟨hline, hcolumn, Nat.lt_of_succ_lt hoffset⟩

end LineTable

-- ==================================================== the two positions

namespace Position

variable {chars : List Char} {count index : Nat}

/-- Whether the character at an index is a carriage return that no line feed follows. -/
def returnsAlone (chars : List Char) (index : Nat) : Bool :=
  chars[index]? == some '\r' && chars[index + 1]? != some '\n'

/-- A line ends at a line feed or at a carriage return alone, which are not the same. -/
theorem countP_endsLine (chars : List Char) (count : Nat) :
    (List.range count).countP (endsLine chars)
      = feedsBefore chars count + (List.range count).countP (returnsAlone chars) := by
  unfold feedsBefore
  induction count with
  | zero => rfl
  | succ count ih =>
    have hone : (if endsLine chars count then 1 else 0)
        = (if feeds chars count then 1 else 0) + if returnsAlone chars count then 1 else 0 := by
      unfold endsLine feeds returnsAlone
      by_cases hfeed : chars[count]? = some '\n'
      · simp [hfeed]
      · simp [hfeed]
    simp only [List.range_succ, List.countP_append, List.countP_singleton]
    omega

/-- Where no carriage return stands alone, lines start behind line feeds. -/
theorem lineStart_eq (h : ∀ index < count, returnsAlone chars index = false) :
    lineStart chars count = behindFeed chars count := by
  induction count with
  | zero => rfl
  | succ count ih =>
    have hends : endsLine chars count = feeds chars count := by
      unfold endsLine
      change (feeds chars count || returnsAlone chars count) = _
      rw [h count (Nat.lt_succ_self count), Bool.or_false]
    unfold lineStart behindFeed
    rw [hends, ih fun index hlt => h index (Nat.lt_succ_of_lt hlt)]

/-- The reader and the line table agree on the line if no carriage return before the
boundary stands alone. -/
theorem line_eq_iff : (after chars count).line = 1 + feedsBefore chars count
    ↔ ∀ index < count, returnsAlone chars index = false := by
  show 1 + (List.range count).countP (endsLine chars) = _ ↔ _
  rw [countP_endsLine]
  have hzero : (List.range count).countP (returnsAlone chars) = 0
      ↔ ∀ index < count, returnsAlone chars index = false := by
    simp [List.countP_eq_zero]
  rw [← hzero]
  omega

/-- Then they agree on the column if no line feed is due since the start of the line. -/
theorem column_eq_iff (h : ∀ index < count, returnsAlone chars index = false) :
    (after chars count).column = 1 + (count - behindFeed chars count)
      ↔ ∀ index < count, behindFeed chars count ≤ index → awaitsLineFeed chars index = false := by
  have hsplit := List.length_eq_countP_add_countP (fun index => !awaitsLineFeed chars index)
    (l := List.range' (behindFeed chars count) (count - behindFeed chars count))
  have hzero : (List.range' (behindFeed chars count) (count - behindFeed chars count)).countP
        (fun index => decide ¬(!awaitsLineFeed chars index) = true) = 0
      ↔ ∀ index < count, behindFeed chars count ≤ index → awaitsLineFeed chars index = false := by
    have hle := behindFeed_le chars count
    simp only [List.countP_eq_zero, List.mem_range'_1, decide_eq_true_eq, Decidable.not_not,
      Bool.not_eq_true', and_imp]
    constructor
    · intro hall index hlt hbehind
      exact hall index hbehind (by omega)
    · intro hall index hbehind hlt
      exact hall index (by omega) hbehind
  rw [List.length_range'] at hsplit
  rw [← hzero]
  show 1 + (List.range' (lineStart chars count) (count - lineStart chars count)).countP
    (fun index => !awaitsLineFeed chars index) = _ ↔ _
  rw [lineStart_eq h]
  omega

/-- In a text up to a boundary every carriage return has its line feed, if none stands
alone and none of the last line is in front of the boundary without it. -/
theorem returnsFeed_take_iff (h : count ≤ chars.length) : ReturnsFeed (chars.take count)
    ↔ (∀ index < count, returnsAlone chars index = false)
      ∧ ∀ index < count, behindFeed chars count ≤ index → awaitsLineFeed chars index = false := by
  constructor
  · intro hreturns
    have hfeed : ∀ index < count, chars[index]? = some '\r' →
        index + 1 < count ∧ chars[index + 1]? = some '\n' := by
      intro index hlt hreturn
      have hnext := hreturns index (by rw [List.getElem?_take_of_lt hlt, hreturn])
      rw [List.getElem?_take] at hnext
      split at hnext
      case isTrue hinside => exact ⟨hinside, hnext⟩
      case isFalse => cases hnext
    refine ⟨fun index hlt => ?_, fun index hlt hbehind => ?_⟩
    · by_cases hreturn : chars[index]? = some '\r'
      · simp [returnsAlone, (hfeed index hlt hreturn).2]
      · simp [returnsAlone, hreturn]
    · by_cases hreturn : chars[index]? = some '\r'
      · -- its line feed would have started a line behind it
        obtain ⟨hinside, hnext⟩ := hfeed index hlt hreturn
        have hbefore := lt_behindFeed (show feeds chars (index + 1) = true by
          simp [feeds, hnext]) hinside
        omega
      · simp [awaitsLineFeed, hreturn]
  · rintro ⟨halone, hawaits⟩ index hreturn
    have hlt : index < count := by
      have hinside := (List.getElem?_eq_some_iff.mp hreturn).1
      rw [List.length_take] at hinside
      omega
    rw [List.getElem?_take_of_lt hlt] at hreturn
    have hnext : chars[index + 1]? = some '\n' := by
      simpa [returnsAlone, hreturn] using halone index hlt
    have hawaiting : awaitsLineFeed chars index = true := by
      simp [awaitsLineFeed, hreturn, hnext]
    have hbefore : index < behindFeed chars count := by
      refine Nat.lt_of_not_le fun hbehind => ?_
      rw [hawaits index hlt hbehind] at hawaiting
      cases hawaiting
    -- if the cut fell right behind the carriage return, its line would start in front of it
    have hinside : index + 1 < count := by
      refine Nat.lt_of_le_of_ne hlt ?_
      rintro rfl
      have hnot : feeds chars index = false := by simp [feeds, hreturn]
      have hle := behindFeed_lt hnot
      omega
    rw [List.getElem?_take_of_lt hinside, hnext]

/-- The line table gives a boundary the position that the reader gives it if and only if
every carriage return before the boundary has its line feed before it. -/
theorem position_after_eq_iff (h : count ≤ chars.length) :
    (LineTable.build (String.ofList chars)).position (String.ofList chars)
        (after chars count).offset = after chars count
      ↔ ReturnsFeed (chars.take count) := by
  rw [returnsFeed_take_iff h]
  show LineTable.position _ _ (byteLength (chars.take count)) = _ ↔ _
  rw [LineTable.position_byteLength h]
  constructor
  · intro heq
    have halone := line_eq_iff.mp (congrArg Position.line heq).symm
    exact ⟨halone, (column_eq_iff halone).mp (congrArg Position.column heq).symm⟩
  · rintro ⟨halone, hawaits⟩
    have hline := line_eq_iff.mpr halone
    have hcolumn := (column_eq_iff halone).mpr hawaits
    rw [← hline, ← hcolumn]
    rfl

end Position

-- ============================================================== tokens

namespace Reading

/-- The text in front of a boundary. -/
theorem slice_after (chars : List Char) (count : Nat) :
    (slice (String.ofList chars) 0 (Position.after chars count).offset).toList
      = chars.take count := by
  have hslice := slice_take chars (Nat.zero_le count)
  rw [List.take_zero, byteLength_nil, List.drop_zero, Nat.sub_zero] at hslice
  show (slice _ 0 (byteLength (chars.take count))).toList = _
  rw [hslice, String.toList_ofList]

/-- Of a text of fewer than 2^32 - 1 bytes, words of 32 bits hold all positions. The line
table and the reader agree on where a token starts, and on the end of the text, if and
only if every carriage return in front of it has its line feed there. So a label at the
start of such a token is quoted with the line and the column that the reader gave the
token. -/
theorem position_eq_iff (source : String) (hsize : source.utf8ByteSize + 1 < UInt32.size) :
    (∀ count, count ≤ source.toList.length → (Position.after source.toList count).Fits
        ∧ ((LineTable.build source).position source
          (Position.after source.toList count).offset).Fits)
      ∧ (∀ token ∈ (ofSource source).tokens,
        ((LineTable.build source).position source token.span.start = token.start
            ↔ ReturnsFeed (slice source 0 token.span.start).toList)
          ∧ ∀ (colors : Bool) (path : String) (label : Label),
            label.span.start = token.span.start →
            ReturnsFeed (slice source 0 token.span.start).toList →
            ∃ quoted, Terminal.renderQuotedLabel colors ⟨path, source⟩ label
              = "".pushn ' ' (toString token.start.line).length
                ++ (if label.isPrimary then "-->" else ":::") ++ " " ++ path ++ ":"
                ++ token.start.render ++ "\n" ++ quoted)
      ∧ ((LineTable.build source).position source (ofSource source).eof.offset
            = (ofSource source).eof
          ↔ ReturnsFeed source.toList) := by
  obtain ⟨hcovers, heof⟩ := ofSource_covers source
  have hsource : String.ofList source.toList = source := String.ofList_toList
  -- a boundary lies inside the text, so the bound on the bytes holds of its offset
  have hbytes : ∀ {count : Nat}, byteLength (source.toList.take count) + 1 < UInt32.size := by
    intro count
    have hsplit := congrArg byteLength (List.take_append_drop count source.toList)
    have hall : byteLength source.toList = source.utf8ByteSize :=
      congrArg String.utf8ByteSize hsource
    rw [byteLength_append] at hsplit
    omega
  -- at any boundary the two agree just if the carriage returns in front of it are paired there
  have hboundary : ∀ {count : Nat}, count ≤ source.toList.length →
      ((LineTable.build source).position source (Position.after source.toList count).offset
          = Position.after source.toList count
        ↔ ReturnsFeed (slice source 0 (Position.after source.toList count).offset).toList) := by
    intro count hle
    have hiff := Position.position_after_eq_iff hle
    have hfront := slice_after source.toList count
    rw [hsource] at hiff hfront
    rw [hfront]
    exact hiff
  refine ⟨fun count hle => ?_, fun token hmem => ?_, ?_⟩
  · have htable := LineTable.fits_position_byteLength hle hbytes
    rw [hsource] at htable
    exact ⟨Position.fits_after_of_lt hle hbytes, htable⟩
  · obtain ⟨first, last, hholds⟩ := hcovers.holds token hmem
    have hiff := hboundary (Nat.le_of_lt (Nat.lt_of_lt_of_le hholds.nonempty hholds.inside))
    rw [← hholds.start_eq] at hiff
    refine ⟨hiff, fun colors path label hlabel hreturns => ?_⟩
    have hposition := hiff.mpr hreturns
    have hline : ((LineTable.build source).lineColumn source label.span.start).1
        = token.start.line := by
      rw [hlabel]
      exact congrArg Position.line hposition
    have hcolumn : ((LineTable.build source).lineColumn source label.span.start).2
        = token.start.column := by
      rw [hlabel]
      exact congrArg Position.column hposition
    unfold Terminal.renderQuotedLabel Position.render
    simp only [hline, hcolumn, String.append_assoc]
    exact ⟨_, rfl⟩
  · have hiff := hboundary (Nat.le_refl source.toList.length)
    have hfront := slice_after source.toList source.toList.length
    rw [hsource] at hfront
    rw [hfront, List.take_length, ← heof] at hiff
    exact hiff

/-- A name behind a line break of two characters is quoted from where it was read. -/
theorem position_eq_iff_name :
    "a\r\nb".utf8ByteSize + 1 < UInt32.size ∧
    ∃ token ∈ (ofSource "a\r\nb").tokens, token.start = ⟨2, 1, 3⟩
      ∧ (LineTable.build "a\r\nb").position "a\r\nb" token.span.start = token.start
      ∧ ∃ quoted, Terminal.renderQuotedLabel false ⟨"M.purs", "a\r\nb"⟩
          ⟨token.span, "here", true⟩
        = " " ++ "-->" ++ " " ++ "M.purs" ++ ":" ++ token.start.render ++ "\n" ++ quoted := by
  have hsize : "a\r\nb".utf8ByteSize + 1 < UInt32.size := by decide
  have hmem : (⟨.lower, ⟨2, 1, 3⟩, ⟨2, 2, 4⟩⟩ : Token) ∈ (ofSource "a\r\nb").tokens := by
    decide +kernel
  have hreturns : ReturnsFeed (slice "a\r\nb" 0 3).toList := by
    rw [show (slice "a\r\nb" 0 3).toList = ['a', '\r', '\n'] by decide +kernel]
    intro index hreturn
    rcases index with _ | _ | _ | index
    · cases hreturn
    · rfl
    · cases hreturn
    · cases hreturn
  obtain ⟨hiff, hquoted⟩ := (position_eq_iff "a\r\nb" hsize).2.1 _ hmem
  exact ⟨hsize, _, hmem, rfl, hiff.mpr hreturns,
    hquoted false "M.purs" ⟨⟨3, 4⟩, "here", true⟩ rfl hreturns⟩

/-- A name behind a carriage return alone: the reader has it on the second line, the line
table on the first. -/
theorem position_ne_behind_return :
    (⟨.lower, ⟨2, 1, 1⟩, ⟨2, 2, 2⟩⟩ : Token) ∈ (ofSource "\rx").tokens
      ∧ (LineTable.build "\rx").position "\rx" 1 = ⟨1, 2, 1⟩
      ∧ ¬∀ source : String, ∀ token ∈ (ofSource source).tokens,
        (LineTable.build source).position source token.span.start = token.start := by
  have hmem : (⟨.lower, ⟨2, 1, 1⟩, ⟨2, 2, 2⟩⟩ : Token) ∈ (ofSource "\rx").tokens := by
    decide +kernel
  have htable : (LineTable.build "\rx").position "\rx" 1 = ⟨1, 2, 1⟩ := by decide +kernel
  refine ⟨hmem, htable, fun h => ?_⟩
  have hstart := h "\rx" _ hmem
  rw [show (Token.span ⟨.lower, ⟨2, 1, 1⟩, ⟨2, 2, 2⟩⟩).start = 1 from rfl, htable] at hstart
  cases hstart

end Reading

end Offside
