import Offside.Proofs.Language.Block
import Offside.Proofs.Language.Bounds
import Offside.Proofs.Layout.Opening

/-!
Recovery in the grammar of the language.

Of every parse of a text, whatever its category, every run of a block that stands
at a start is exact: it matches up to the end that closes the block. And a module
whose head matches is a match up to the end of its block, with an item or an
error node between any two of its separators.
-/

namespace Offside.Language

open Grammar Form Context

variable {input : Input} {ctx after : Context input} {outcome : Outcome} {levels : Nat}

-- ========================================================= every block

/-- If the run is that of a block at its start, the reply is a match up to the end
that closes the block. -/
def BlockExact (grammar : Grammar) (ctx : Context input) (reply : Outcome × Context input) : Prop :=
  ∀ item what, grammar = block item what → input.kindAt ctx.place = .layoutStart →
    reply.1.success = true
      ∧ ∃ stop, input.Closes ctx.place stop ∧ reply.2.place = stop + 1

/-- A block that keeps to the bounds recovers only outside attempts, and its items
take whole trees. -/
theorem completeItem_of_isBounded {item : Grammar} {what : String} {attempted : Bool} {height : Nat}
    (h : (block item what).isBounded bounds attempted height = true) :
    attempted = false ∧ (completeItem item).takesTrees noSeparator = true := by
  rw [block_eq, items_eq] at h
  match height with
  | 0 | 1 => simp [isBounded] at h
  | height + 2 =>
    obtain ⟨hattempted, hbody⟩ := Bool.and_eq_true_iff.mp h
    obtain ⟨_, hrest⟩ := Bool.and_eq_true_iff.mp hbody
    obtain ⟨hrelax, _⟩ := Bool.and_eq_true_iff.mp hrest
    obtain ⟨_, hitems⟩ := Bool.and_eq_true_iff.mp hrelax
    obtain ⟨hfirst, _⟩ := Bool.and_eq_true_iff.mp hitems
    obtain ⟨_, htakes⟩ := Bool.and_eq_true_iff.mp hfirst
    exact ⟨by simpa using hattempted, htakes⟩

/-- A run within the bounds is exact, since a run that is checked along the way answers there
too. -/
theorem blockExact_of_isBounded (hlaid : input.Laid) {grammar : Grammar} {height : Nat}
    {reply : Outcome × Context input}
    (hbounded : grammar.isBounded bounds ctx.inAttempt height = true)
    (h : runWithin ruleTable levels grammar ctx = some reply) : BlockExact grammar ctx reply := by
  rintro item what rfl hstart
  obtain ⟨hrecovers, hitem⟩ := completeItem_of_isBounded hbounded
  obtain ⟨stop, hcloses⟩ := hlaid.closes ctx.place hstart
  obtain ⟨hsuccess, hplace⟩ :=
    block_exact hlaid (fun _ _ => takesTrees_rule) hitem h hrecovers hcloses
  exact ⟨hsuccess, stop, hcloses, hplace⟩

/-- The checked run of an entry answers. -/
theorem isSome_runChecked (source : String) (entry : Entry) :
    (runChecked BlockExact ruleTable (levelsFor (inputOf source)) entry.grammar
      (Context.initial (inputOf source)).mark.2).isSome = true := by
  have hlaid := laid_inputOf source
  have hbounded := isBounded_entry entry
  generalize inputOf source = input at hlaid ⊢
  have hcovers := covers_runChecked bounds_fit hlaid
    (fun _ _ _ _ _ _ hbounded h => blockExact_of_isBounded hlaid hbounded h) (levelsFor input)
  exact hcovers.answers entry.grammar _ bounds.levels (room_levelsFor rfl) hbounded

-- ================================================== the head of a module

/-- The kinds of token in the head of a module, up to its `where`. -/
def inHeader : TokenKind → Bool
  | .kwModule | .upper | .qualifiedUpper | .leftParen | .rightParen | .comma | .lower
  | .operator | .dotDot | .kwType | .kwClass => true
  | _ => false

theorem isQuiet_of_inHeader {kind : TokenKind} (h : inHeader kind = true) :
    (layoutRules.action kind).isQuiet = true ∧ kind.isWritten = true := by
  cases kind <;> first | exact ⟨rfl, rfl⟩ | cases h

/-- Trees that cannot be blocks are tokens of the kinds of their roots. -/
theorem kindAt_of_trees {roots : TokenKind → Bool} {first last : Nat}
    (h : input.Trees roots first last) (hflat : roots .layoutStart = false) :
    ∀ place, first ≤ place → place < last → roots (input.kindAt place) = true := by
  induction h with
  | nil => intro place hfirst hlast; omega
  | token _ hroot _ _ ih =>
    intro place hfirst hlast
    rcases Nat.lt_or_eq_of_le hfirst with hlt | rfl
    · exact ih hflat place hlt hlast
    · exact hroot
  | block hroot => cases hflat.symm.trans hroot

/-- The head of a module ends with its `where`. -/
theorem header_kinds (hlaid : input.Laid) {last : Nat}
    (h : Matches ruleTable input moduleHeader 0 last) :
    ∃ place, last = place + 1 ∧ input.kindAt 0 = .kwModule ∧ input.kindAt place = .kwWhere
      ∧ ∀ index < place, inHeader (input.kindAt index) = true := by
  have hrules : ∀ rule body, ruleTable rule = some body → body.takesTrees noSeparator = true :=
    fun _ _ => takesTrees_rule
  change Matches ruleTable input (.node .moduleHeader (.seq
    [.token .kwModule, moduleName, .optional exports, .token .kwWhere])) 0 last at h
  cases h with
  | node h =>
  cases h with
  | seqCons hkeyword h =>
  cases h with
  | seqCons hname h =>
  cases h with
  | seqCons hexports h =>
  cases h with
  | @seqCons _ _ place _ _ hwhere h =>
  cases h
  have hfirst := hkeyword.kindAt_eq
  have hkeyword := hkeyword.trees hlaid hrules (show Grammar.takesTrees _ inHeader = true by decide)
  have hname := hname.trees hlaid hrules (show Grammar.takesTrees _ inHeader = true by decide)
  have hexports := hexports.trees hlaid hrules (show Grammar.takesTrees _ inHeader = true by decide)
  have hkinds := kindAt_of_trees ((hkeyword.append hname).append hexports) rfl
  cases hwhere with
  | token _ hkind =>
    exact ⟨_, rfl, hfirst, hkind, fun index hindex => hkinds index (Nat.zero_le index) hindex⟩

/-- A significant token of the source, by its kind. -/
theorem raw_of_isWritten {source : String} {tokens : List LayoutToken} {place : Nat}
    (h : ((Input.ofTokens source tokens).kindAt place).isWritten = true) :
    ∃ token, (Layout.significantOf tokens)[place]? = some (.raw token)
      ∧ (Input.ofTokens source tokens).kindAt place = token.kind := by
  unfold Input.kindAt at h ⊢
  rw [Input.get?_ofTokens] at h ⊢
  cases hplace : (Layout.significantOf tokens)[place]? with
  | none =>
    rw [hplace] at h
    cases h
  | some token =>
    rw [hplace] at h
    cases token with
    | start | sep | stop => cases h
    | raw token => exact ⟨token, rfl, rfl⟩

/-- Behind the head of a module stands the start of its block, the first of the text. -/
theorem start_behind_header (source : String) {last : Nat}
    (h : Matches ruleTable (inputOf source) moduleHeader 0 last) :
    (inputOf source).kindAt last = .layoutStart
      ∧ ∀ place < last, (inputOf source).kindAt place ≠ .layoutStart := by
  obtain ⟨place, rfl, _, hwhere, hheads⟩ := header_kinds (laid_inputOf source) h
  obtain ⟨keyword, hkeyword, hkind⟩ :=
    raw_of_isWritten (show ((inputOf source).kindAt place).isWritten = true by rw [hwhere]; rfl)
  obtain ⟨next, hnext⟩ := Layout.start_behind_where layoutRules _ _
    (congrArg layoutRules.action (hkind.symm.trans hwhere)) hkeyword fun index hindex => by
      obtain ⟨hquiet, hwritten⟩ := isQuiet_of_inHeader (hheads index hindex)
      obtain ⟨token, htoken, hkind⟩ := raw_of_isWritten hwritten
      exact ⟨token, htoken, hkind ▸ hquiet⟩
  refine ⟨?_, fun index hindex hstart => ?_⟩
  · unfold Input.kindAt inputOf
    rw [Input.get?_ofTokens, hnext]
    rfl
  · rcases Nat.lt_or_eq_of_le (Nat.le_of_lt_succ hindex) with hlt | rfl
    · have hhead := hheads index hlt
      rw [hstart] at hhead
      cases hhead
    · cases hwhere.symm.trans hstart

-- ============================================================ the module

/-- The log of what stands in the block of a module: nothing, or items. -/
def ModuleBody (input : Input) (first last : Nat) (body : List Event) : Prop :=
  (first = last ∧ body = []) ∨
    ItemsLog ruleTable input (importDecl <|> declaration) "malformed declaration" first last body

/-- What stands in the block of a module is matched up to its end. -/
theorem moduleBody_exact (hlaid : input.Laid) {stop : Nat}
    (hstop : input.kindAt stop = .layoutEnd)
    (h : runWithin ruleTable levels (.optional moduleBody) ctx = some (outcome, after))
    (hrecovers : ctx.inAttempt = false) (hstart : ctx.place = stop ∨ ¬EndsItem input ctx.place)
    (trees : input.Trees anyRoot ctx.place stop) :
    outcome.success = true ∧ after.place = stop
      ∧ ∃ body, after.events.toList = ctx.events.toList ++ body
        ∧ ModuleBody input ctx.place stop body := by
  have hrules : ∀ rule body, ruleTable rule = some body → body.takesTrees noSeparator = true :=
    fun _ _ => takesTrees_rule
  have hitem : (completeItem (importDecl <|> declaration)).takesTrees noSeparator = true := by
    decide
  obtain ⟨below, h⟩ := runLevel_of_runWithin h
  obtain ⟨step, between, hstep, hcases⟩ := optional_cases h
  have hrollback : between.rollback ctx.start.1 = { ctx with nextId := between.nextId } :=
    rollback_eq (extends_runWithin ruleTable below _ _ _ hstep)
  rcases hstart with hempty | hstart
  · -- an empty body fails without moving on, and being optional it is left out
    obtain ⟨hfailed, hsame⟩ := items_empty hstep (hempty ▸ hstop)
    rcases hcases with ⟨hmatched, _⟩ | ⟨_, htaken⟩
    · rw [hmatched] at hfailed
      cases hfailed
    · obtain ⟨hsuccess, rfl⟩ := htaken (by rw [hsame]; exact Nat.le_refl _)
      refine ⟨hsuccess, hempty, [], ?_, .inl ⟨hempty, rfl⟩⟩
      rw [hrollback, List.append_nil]
  · obtain ⟨hmatched, hplace, body, hevents, hitems⟩ :=
      items_exact hlaid hrules hitem hstop hstep hrecovers hstart trees
    rcases hcases with ⟨_, rfl, rfl⟩ | ⟨hfailed, _⟩
    · exact ⟨hmatched, hplace, body, hevents, .inr (hitems.weaken (.ofComplete rfl))⟩
    · rw [hmatched] at hfailed
      cases hfailed

/-- The parts of a module, of which the first matches up to the start of a block. -/
theorem moduleParts_exact (hlaid : input.Laid) {more stop : Nat} {head : Outcome}
    {other between : Context input}
    (hheader : runWithin ruleTable more moduleHeader other = some (head, between))
    (hmatched : head.success = true) (hsame : other.Alike False ctx)
    (hrecovers : ctx.inAttempt = false) (hcloses : input.Closes between.place stop)
    (h : runWithin ruleTable levels (.seq [moduleHeader, .token .layoutStart,
      .optional moduleBody, .token .layoutEnd]) ctx = some (outcome, after)) :
    outcome.success = true ∧ after.place = stop + 1
      ∧ ∃ header body, after.events.toList = ctx.events.toList
          ++ (header ++ .token between.place :: (body ++ [.token stop]))
        ∧ ModuleBody input (between.place + 1) stop body := by
  have hstart := hcloses.start_kind
  have hstop := hcloses.stop_kind
  obtain ⟨below, h⟩ := runLevel_of_runWithin h
  -- the head, which matches here as it does elsewhere
  obtain ⟨first, opened, hfirst, hrest⟩ := seq_next h
  obtain ⟨rfl, hopened⟩ := run_unique hheader hfirst hsame
  obtain ⟨hbook, header, _, hheaderEvents, _⟩ := extends_runWithin ruleTable below _ _ _ hfirst
  rw [← hopened] at hstart hcloses ⊢
  -- the start of the block
  obtain ⟨second, begun, hsecond, hrest⟩ := seq_next (hrest hmatched)
  obtain ⟨hsecondMatched, rfl⟩ := run_token hsecond hstart nofun
  have hinside : opened.place < input.size :=
    Input.lt_size_of_start hstart
  have hbegun : opened.advance.place = opened.place + 1 := place_advance hinside
  -- what stands in it
  obtain ⟨third, filled, hthird, hrest⟩ := seq_next (hrest hsecondMatched)
  obtain ⟨hthirdMatched, hfilled, body, hbodyEvents, hbody⟩ := moduleBody_exact hlaid hstop hthird
    (((extends_advance opened).inAttempt.trans hbook.inAttempt).trans hrecovers)
    (by rw [hbegun]; exact start_cases hlaid hcloses) (by rw [hbegun]; exact hcloses.body)
  -- its end
  obtain ⟨fourth, last, hfourth, hnil⟩ := seq_next (hrest hthirdMatched)
  obtain ⟨hfourthMatched, rfl⟩ := run_token hfourth (hfilled ▸ hstop) nofun
  cases hnil hfourthMatched
  have hstopInside : filled.place < input.size :=
    Input.lt_size_of_kindAt (by rw [hfilled, hstop]; exact nofun)
  refine ⟨by rw [Outcome.success_merge]; exact hfourthMatched,
    by rw [place_advance hstopInside, hfilled], header, body, ?_, hbegun ▸ hbody⟩
  rw [events_advance hstopInside, hbodyEvents, events_advance hinside, hheaderEvents, hfilled]
  simp

/-- A module whose head is followed by its block is matched up to the end of it. -/
theorem wholeModule_exact (hlaid : input.Laid) {more stop : Nat} {head : Outcome}
    {other between : Context input}
    (hheader : runWithin ruleTable more moduleHeader other = some (head, between))
    (hmatched : head.success = true) (hsame : other.Alike False ctx) (hstart : ctx.place = 0)
    (hrecovers : ctx.inAttempt = false) (hcloses : input.Closes between.place stop)
    (h : runWithin ruleTable levels wholeModule ctx = some (outcome, after)) :
    outcome.success = true ∧ after.place = stop + 1
      ∧ ∃ header body, after.events.toList = ctx.events.toList
          ++ (.start (some .module) none :: header
            ++ .token between.place :: (body ++ [.token stop, .finish]))
        ∧ ModuleBody input (between.place + 1) stop body := by
  -- a header that matches starts with its keyword, so the node is tried
  have hkeyword : ctx.kind = .kwModule := by
    have hmatch := matches_runWithin ruleTable more _ _ _ _ hheader hmatched
    rw [hsame.place, hstart] at hmatch
    obtain ⟨_, _, hkind, _⟩ := header_kinds hlaid hmatch
    unfold Context.kind
    rw [hstart, hkind]
  obtain ⟨below, h⟩ := runLevel_of_runWithin h
  change Form.node _ _ (.seq [moduleHeader, .token .layoutStart, .optional moduleBody,
    .token .layoutEnd]) _ = _ at h
  unfold Form.node at h
  rw [hkeyword, if_pos (by decide)] at h
  dsimp only at h
  obtain ⟨result, last, hrun, h⟩ := reply_bind h
  obtain ⟨hsuccess, hplace, header, body, hevents, hbody⟩ := moduleParts_exact hlaid hheader
    hmatched (⟨hsame.place, hsame.inAttempt, False.elim⟩ : other.Alike False ctx.mark.2)
    hrecovers hcloses hrun
  rw [if_pos hsuccess] at h
  cases h
  refine ⟨hsuccess, hplace, header, body, ?_, hbody⟩
  -- the opening of the node was logged blank, and is given its kind when the node is completed
  have htag : (tag last.events ctx.mark.1.index .module).toList = ctx.events.toList
      ++ .start (some .module) none
        :: (header ++ .token between.place :: (body ++ [.token stop])) := by
    unfold tag
    rw [Array.toList_modify, hevents,
      show ctx.mark.2.events.toList = ctx.events.toList ++ [.blank] from Array.toList_push,
      show ctx.mark.1.index = ctx.events.toList.length from Array.length_toList.symm,
      List.append_assoc, List.singleton_append, modify_middle]
    rfl
  show ((tag last.events ctx.mark.1.index .module).push .finish).toList = _
  rw [Array.toList_push, htag]
  simp

-- ========================================================= the theorem

/-- A module from its head to the end of its block, which is the first of the text:
it is a match, and its log has, between the start and the end of the block, the
log of its items. -/
structure ModuleExact (input : Input) (start stop : Nat) (reply : Outcome × Context input) :
    Prop where
  closes : input.Closes start stop
  first : ∀ place < start, input.kindAt place ≠ .layoutStart
  success : reply.1.success = true
  place_eq : reply.2.place = stop + 1
  body : ∃ header body, reply.2.events.toList = [.blank] ++ (.start (some .module) none :: header
      ++ .token start :: (body ++ [.token stop, .finish]))
    ∧ ModuleBody input (start + 1) stop body

/-- Of every text, parsed as whatever category, all runs of blocks are exact, and
the parse comes to an answer. Where the head of a module matches, the module is
matched up to the end of its block, and every item of the block is matched or
stands in an error node as a whole. -/
theorem recovery_exact :
    (∀ (source : String) (entry : Entry),
      (entry.grammar.run ruleTable (Context.initial (inputOf source)).mark.2).isSome = true
        ∧ runChecked BlockExact ruleTable (levelsFor (inputOf source)) entry.grammar
            (Context.initial (inputOf source)).mark.2
          = entry.grammar.run ruleTable (Context.initial (inputOf source)).mark.2)
      ∧ ∀ (source : String) (head : Outcome) (behind : Context (inputOf source)),
        moduleHeader.run ruleTable (Context.initial (inputOf source)) = some (head, behind) →
        head.success = true →
        ∃ stop reply, Entry.wholeModule.grammar.run ruleTable
            (Context.initial (inputOf source)).mark.2 = some reply
          ∧ ModuleExact (inputOf source) behind.place stop reply := by
  have hanswers : ∀ (source : String) (entry : Entry), ∃ reply,
      runChecked BlockExact ruleTable (levelsFor (inputOf source)) entry.grammar
          (Context.initial (inputOf source)).mark.2 = some reply
        ∧ entry.grammar.run ruleTable (Context.initial (inputOf source)).mark.2 = some reply := by
    intro source entry
    obtain ⟨reply, hreply⟩ := Option.isSome_iff_exists.mp (isSome_runChecked source entry)
    exact ⟨reply, hreply, runWithin_of_runChecked hreply⟩
  refine ⟨fun source entry => ?_, fun source head behind hheader hmatched => ?_⟩
  · obtain ⟨reply, hchecked, hrun⟩ := hanswers source entry
    rw [hchecked, hrun]
    exact ⟨rfl, rfl⟩
  · obtain ⟨⟨outcome, last⟩, _, hrun⟩ := hanswers source .wholeModule
    have hlaid := laid_inputOf source
    have hmatch := matches_runWithin ruleTable _ _ _ _ _ hheader hmatched
    -- behind a header the block of the module starts, which the layout closes
    obtain ⟨hstart, hfirst⟩ := start_behind_header source hmatch
    obtain ⟨stop, hcloses⟩ := hlaid.closes behind.place hstart
    have hwhole : runWithin ruleTable (levelsFor (inputOf source)) wholeModule
        (Context.initial (inputOf source)).mark.2 = some (outcome, last) := hrun
    have hsame : (Context.initial (inputOf source)).Alike False
        (Context.initial (inputOf source)).mark.2 :=
      ⟨rfl, rfl, False.elim⟩
    obtain ⟨hsuccess, hplace, header, body, hevents, hbody⟩ :=
      wholeModule_exact hlaid hheader hmatched hsame rfl rfl hcloses hwhole
    exact ⟨stop, (outcome, last), hrun, hcloses, hfirst, hsuccess, hplace, header, body, hevents,
      hbody⟩

/-- A module with a malformed declaration: its head matches. -/
theorem recovery_exact_malformed :
    ∃ head behind, moduleHeader.run ruleTable
        (Context.initial (inputOf "module M where\na = =\nb = 1")) = some (head, behind)
      ∧ head.success = true
      ∧ ∃ stop reply, Entry.wholeModule.grammar.run ruleTable
          (Context.initial (inputOf "module M where\na = =\nb = 1")).mark.2 = some reply
        ∧ ModuleExact (inputOf "module M where\na = =\nb = 1") behind.place stop reply := by
  have hmatches : (runWithin ruleTable 12 moduleHeader
      (Context.initial (inputOf "module M where\na = =\nb = 1"))).map (·.1.success)
        = some true := by
    decide +kernel
  obtain ⟨⟨head, behind⟩, hheader, hmatched⟩ := Option.map_eq_some_iff.mp hmatches
  have hlevels : 12 ≤ levelsFor (inputOf "module M where\na = =\nb = 1") := by
    unfold levelsFor levelsPerToken
    omega
  obtain ⟨_, hrun, halike⟩ := simulates_runWithin ruleTable hlevels moduleHeader _ _
    (Alike.refl _ : Context.Alike True _ _) head behind hheader
  rw [← halike.eq trivial] at hrun
  exact ⟨head, behind, hrun, hmatched, recovery_exact.2 _ head behind hrun hmatched⟩

end Offside.Language
