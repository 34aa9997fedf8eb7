import Offside.Proofs.Parse.Lossless

/-!
The diagnostics of a parse are the reports among its pieces.

Replaying a log collects the reports on its way, and builds nodes without
touching them (`diagnostics_addPieces`). So the diagnostics of a parse are, in
order, what the run of the entry has reported, then what the parse itself reports
on a failure and on what is left over (`diagnostics_ofReply`). A run reports
nothing but what recovery does: that something is missing, or was skipped
(`Log.codes`).
-/

namespace Offside

open Parse

mutual

/-- The reports in a piece, in order. -/
def Piece.reports : Piece → List Diagnostic
  | .token _ => []
  | .report diagnostic => [diagnostic]
  | .node _ pieces => Piece.allReports pieces

/-- The reports in several pieces, in order. -/
def Piece.allReports : List Piece → List Diagnostic
  | [] => []
  | piece :: rest => piece.reports ++ Piece.allReports rest

end

theorem allReports_append (pieces others : List Piece) :
    Piece.allReports (pieces ++ others) = Piece.allReports pieces ++ Piece.allReports others := by
  induction pieces with
  | nil => rfl
  | cons piece rest ih => rw [List.cons_append, Piece.allReports, Piece.allReports, ih,
      List.append_assoc]

/-- Tokens report nothing. -/
theorem allReports_tokenPieces (first last : Nat) :
    Piece.allReports (tokenPieces first last) = [] := by
  unfold tokenPieces
  induction List.range' first (last - first) with
  | nil => rfl
  | cons place rest ih => exact ih

variable {input : Input}

-- ============================================================= the replay

namespace Builder

theorem diagnostics_addChild (builder : Builder) (child : Tree) :
    (builder.addChild child).diagnostics = builder.diagnostics := by
  unfold addChild
  split <;> rfl

/-- Placing tokens adds no diagnostic. -/
theorem diagnostics_placeMany (count : Nat) : ∀ builder : Builder,
    (builder.placeMany input count).diagnostics = builder.diagnostics := by
  have hone : ∀ builder : Builder, (builder.placeNext input).diagnostics = builder.diagnostics := by
    intro builder
    unfold placeNext
    split
    · exact diagnostics_addChild builder _
    · rfl
  induction count with
  | zero => exact fun _ => rfl
  | succ count ih => exact fun builder => (ih _).trans (hone builder)

theorem diagnostics_placeToken (builder : Builder) (place : Nat) :
    (builder.placeToken input place).diagnostics = builder.diagnostics := by
  unfold placeToken
  split
  · rfl
  · exact diagnostics_placeMany _ builder

/-- Opening a node adds no diagnostic. -/
theorem diagnostics_openNode (builder : Builder) (kind : NodeKind) :
    (builder.openNode input kind).diagnostics = builder.diagnostics := by
  unfold openNode
  dsimp only
  split
  · rfl
  · exact diagnostics_placeMany _ builder

/-- Closing a node adds no diagnostic, and neither does finishing the root. -/
theorem diagnostics_closeNode (builder : Builder) :
    (builder.closeNode input).diagnostics = builder.diagnostics := by
  have hrest : (if builder.openNodes.length = 1 then builder.placeRest input
      else builder).diagnostics = builder.diagnostics := by
    split
    · exact diagnostics_placeMany _ builder
    · rfl
  unfold closeNode
  dsimp only
  generalize (if builder.openNodes.length = 1 then builder.placeRest input else builder) = placed
    at hrest ⊢
  rw [← hrest]
  split
  · rfl
  · split
    · rfl
    · exact diagnostics_addChild _ _

mutual

/-- Building a piece collects its reports, newest first. -/
theorem diagnostics_addPiece (builder : Builder) : ∀ piece : Piece,
    (builder.addPiece input piece).diagnostics = piece.reports.reverse ++ builder.diagnostics
  | .token place => diagnostics_placeToken builder place
  | .report _ => rfl
  | .node kind pieces => by
    rw [addPiece, diagnostics_closeNode, diagnostics_addPieces, diagnostics_openNode]
    rfl

/-- Building pieces adds their reports, newest first. -/
theorem diagnostics_addPieces (builder : Builder) : ∀ pieces : List Piece,
    (builder.addPieces input pieces).diagnostics
      = (Piece.allReports pieces).reverse ++ builder.diagnostics
  | [] => rfl
  | piece :: rest => by
    rw [addPieces, diagnostics_addPieces, diagnostics_addPiece, Piece.allReports,
      List.reverse_append, List.append_assoc]

end

end Builder

/-- The diagnostics of a parse whose entry has added pieces. -/
theorem diagnostics_ofReply {reply : Outcome × Context input} {pieces : List Piece}
    (h : (Context.initial input).mark.2.Adds reply.2 pieces) :
    (ofReply reply).diagnostics
      = Piece.allReports pieces
        ++ Piece.allReports (closingPieces input reply.1 reply.2.place) := by
  obtain ⟨whole, hreplays, hevents⟩ := Context.close_events h.growsBy reply.1
  show (Event.replay input _).2 = _
  rw [replay_of_root hevents hreplays, ← allReports_append]
  show (Builder.addPiece input _ (.node .root _)).diagnostics.reverse = _
  rw [Builder.diagnostics_addPiece, Piece.reports]
  simp [Builder.initial]

/-- The run of an entry adds pieces. -/
theorem adds_runEntry (rules : RuleTable) (entry : Grammar) (ctx : Context input) :
    ∃ pieces, ctx.Adds (runEntry rules entry ctx).2 pieces := by
  unfold runEntry
  cases hrun : entry.run rules ctx with
  | none => exact ⟨[], .refl ctx⟩
  | some reply => exact (Grammar.extends_runWithin rules _ _ _ _ hrun).adds

-- ========================================================= what is reported

/-- A report that recovery makes. -/
structure Diagnostic.Recovers (diagnostic : Diagnostic) : Prop where
  isError : diagnostic.isError = true
  code : diagnostic.code = .missingInput ∨ diagnostic.code = .skippedInput

/-- A report on something missing is one that recovery makes. -/
theorem recovers_missing (span : Span) (message : String) (expected : List String) :
    (Diagnostic.missing span message expected).Recovers := by
  unfold Diagnostic.missing
  dsimp only
  split
  · exact ⟨rfl, .inl rfl⟩
  · exact ⟨rfl, .inl rfl⟩

theorem recovers_skipped (span : Span) (message : String) :
    (Diagnostic.skipped span message).Recovers := ⟨rfl, .inr rfl⟩

mutual

/-- Runs report nothing but what recovery does. -/
theorem Log.recovers {recovers : Bool} {first last : Nat} {log : List Event} {pieces : List Piece} :
    Log input recovers first last log pieces →
      ∀ diagnostic ∈ Piece.allReports pieces, diagnostic.Recovers
  | .nil _, _, h | .blank _, _, h | .token _, _, h => nomatch h
  | .append earlier later, diagnostic, h => by
    rw [allReports_append] at h
    rcases List.mem_append.mp h with h | h
    · exact earlier.recovers diagnostic h
    · exact later.recovers diagnostic h
  | .report _ reports, _, h => by
    obtain rfl := List.mem_singleton.mp h
    cases reports with
    | missing => exact recovers_missing _ _ _
    | skipped => exact recovers_skipped _ _
  | .skipped message _ _ _, _, h => by
    rw [Piece.allReports, Piece.reports, allReports_tokenPieces] at h
    obtain rfl := List.mem_singleton.mp h
    exact recovers_skipped _ _
  | .node chain, diagnostic, h => chain.recovers diagnostic h

/-- A wrapped node has the reports of its pieces. -/
theorem Chain.recovers {recovers : Bool} {first last : Nat} {front back : List Event}
    {kind : NodeKind} {piece : Piece} : Chain input recovers first last front kind back piece →
      ∀ diagnostic ∈ Piece.allReports [piece], diagnostic.Recovers
  | .node kind body, diagnostic, h => by
    rw [Piece.allReports, Piece.reports, Piece.allReports, List.append_nil] at h
    exact body.recovers diagnostic h
  | .wrap kind chain body, diagnostic, h => by
    rw [Piece.allReports, Piece.reports, Piece.allReports, Piece.allReports, List.append_nil] at h
    rcases List.mem_append.mp h with h | h
    · refine chain.recovers diagnostic ?_
      rw [Piece.allReports, Piece.allReports, List.append_nil]
      exact h
    · exact body.recovers diagnostic h

end

/-- The report on a failure is an error, with a message or without. -/
theorem isError_failureDiagnostic (outcome : Outcome) :
    (failureDiagnostic input outcome).isError = true := by
  unfold failureDiagnostic
  dsimp only
  split
  · split
    · rfl
    · rfl
  · rfl

/-- A message brings its own code, and what was expected is reported as an unexpected token. -/
theorem code_failureDiagnostic (outcome : Outcome) :
    (failureDiagnostic input outcome).code
      = (outcome.message.map FailureMessage.code).getD .unexpectedToken := by
  unfold failureDiagnostic
  dsimp only
  split
  case h_1 message hmessage =>
    rw [hmessage]
    split
    · rfl
    · rfl
  case h_2 hnone =>
    rw [hnone]
    rfl

/-- A parse itself reports the failure of its entry and what is left over. -/
theorem reports_closingPieces {outcome : Outcome} {place : Nat} {diagnostic : Diagnostic}
    (h : diagnostic ∈ Piece.allReports (closingPieces input outcome place)) :
    diagnostic = failureDiagnostic input outcome
      ∨ diagnostic = leftoverDiagnostic input outcome place := by
  unfold closingPieces at h
  rw [allReports_append] at h
  rcases List.mem_append.mp h with hfailure | hleftover
  · split at hfailure
    · cases hfailure
    · exact .inl (List.mem_singleton.mp hfailure)
  · split at hleftover
    · cases hleftover
    · rw [allReports_append, Piece.allReports, Piece.reports, allReports_tokenPieces] at hleftover
      split at hleftover
      · exact .inr (List.mem_singleton.mp hleftover)
      · cases hleftover

/-- Whatever an entry came to, its parse reports errors only. -/
theorem isError_ofInput (rules : RuleTable) (entry : Grammar) (input : Input) :
    ∀ diagnostic ∈ (ofInput rules entry input).diagnostics, diagnostic.isError = true := by
  obtain ⟨pieces, hadds⟩ := adds_runEntry rules entry (Context.initial input).mark.2
  obtain ⟨log, _, hlog⟩ := hadds.logged
  unfold ofInput
  rw [diagnostics_ofReply hadds]
  intro diagnostic hmem
  rcases List.mem_append.mp hmem with hmem | hmem
  · exact (hlog.recovers diagnostic hmem).isError
  · rcases reports_closingPieces hmem with rfl | rfl
    · exact isError_failureDiagnostic _
    · rfl

/-- Where an entry comes to an outcome without a message, its parse reports, besides
what recovery does, that something was not expected. -/
theorem code_ofReply {reply : Outcome × Context input} {pieces : List Piece}
    (h : (Context.initial input).mark.2.Adds reply.2 pieces) (hmute : reply.1.message = none) :
    ∀ diagnostic ∈ (ofReply reply).diagnostics,
      diagnostic.code = .unexpectedToken ∨ diagnostic.code = .missingInput
        ∨ diagnostic.code = .skippedInput := by
  obtain ⟨log, _, hlog⟩ := h.logged
  rw [diagnostics_ofReply h]
  intro diagnostic hmem
  rcases List.mem_append.mp hmem with hmem | hmem
  · exact .inr (hlog.recovers diagnostic hmem).code
  · rcases reports_closingPieces hmem with rfl | rfl
    · rw [code_failureDiagnostic, hmute]
      exact .inl rfl
    · exact .inl rfl

end Offside
