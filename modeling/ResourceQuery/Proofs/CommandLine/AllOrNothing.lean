import ResourceQuery.Proofs.CommandLine.Explain
import ResourceQuery.Proofs.ErrorTree.Payload

/-!
# Output is all or nothing

A run that fails has written nothing. All that can go wrong goes wrong while the configuration and
the input are read, or while the errors are expanded, and the lines come after that. Explaining
renders the query when its listing has been written already, so there it matters that rendering
never fails (`Query.renderParams_eq_ok`). Main statement: `run_allOrNothing`.
-/

set_option autoImplicit false

namespace ResourceQuery.CommandLine

open Session

variable {world : World} {file : Option String}

/-! ## Commands -/

theorem allOrNothing_expand (world : World) (file : Option String) :
    AllOrNothing (expand world file) := by
  obtain ⟨_, hjson⟩ := reads_readJson world file
  refine hjson.silent.bind_allOrNothing fun input => ?_
  refine (silent_tell _).bind_allOrNothing fun _ => ?_
  refine (reads_check _ _).silent.bind_allOrNothing fun expanded => ?_
  exact (succeeds_say _).allOrNothing

theorem succeeds_render (names : Names) (query : Query) : Succeeds (render names query) :=
  fun written => ⟨query.toParams names, by rw [reads_render names query written]⟩

theorem allOrNothing_explain (world : World) (names : Names) (file : Option String) :
    AllOrNothing (explain world names file) := by
  obtain ⟨_, hparams⟩ := reads_readParams world file
  refine hparams.silent.bind_allOrNothing fun params => ?_
  refine (reads_check _ _).silent.bind_allOrNothing fun query => ?_
  -- from the first line on nothing fails
  refine ((succeeds_say _).bind fun _ => ?_).allOrNothing
  by_cases hempty : query.isEmpty = true
  · rw [if_pos hempty]
    exact succeeds_say _
  · rw [if_neg hempty]
    refine (succeeds_say _).bind fun _ => (succeeds_say _).bind fun _ => ?_
    exact (succeeds_render names query).bind fun _ => succeeds_say _

theorem allOrNothing_run (world : World) (invocation : Invocation) :
    AllOrNothing (invocation.run world) := by
  rw [Invocation.run]
  cases invocation.command with
  | expand => exact allOrNothing_expand world invocation.file
  | explain =>
      refine (silent_loadNames world invocation.config).bind_allOrNothing fun names => ?_
      exact allOrNothing_explain world names invocation.file
  | params =>
      refine (silent_loadNames world invocation.config).bind_allOrNothing fun names => ?_
      exact (succeeds_say _).allOrNothing

/-! ## What is written -/

/-- A session that is all or nothing fails without a line, or ends well. -/
theorem transcript_cases {session : Session Unit} (h : AllOrNothing session) :
    (∃ problem events, session.transcript = (.error problem, ⟨[], events⟩))
      ∨ ∃ written, session.transcript = (.ok (), written) := by
  rcases hrun : session.transcript with ⟨_ | _, lines, events⟩
  case error problem =>
    have hlines := h ⟨[], []⟩ problem (by rw [← transcript_eq_after, hrun])
    rw [← transcript_eq_after, hrun] at hlines
    obtain rfl : lines = [] := hlines
    exact .inl ⟨problem, events, rfl⟩
  case ok => exact .inr ⟨⟨lines, events⟩, rfl⟩

/-- A command fails without a line, or ends well with all its lines. The events told on the way are
shown in both cases. -/
theorem run_cases {arguments : List String} {invocation : Invocation}
    (hread : read world.configFile arguments = .ok invocation) :
    (∃ problem events, (invocation.run world).transcript = (.error problem, ⟨[], events⟩)
        ∧ run world arguments
          = ⟨1, "", world.notices invocation.verbose events
              ++ [.line (problem.line world.colored)]⟩)
      ∨ ∃ written, (invocation.run world).transcript = (.ok (), written)
        ∧ run world arguments
          = ⟨0, unlines written.lines, world.notices invocation.verbose written.events⟩ := by
  have hrun : run world arguments
      = Outcome.ofTranscript world invocation.verbose (invocation.run world).transcript := by
    rw [run, hread]
  rcases transcript_cases (allOrNothing_run world invocation) with
    ⟨problem, events, hproblem⟩ | ⟨written, hwritten⟩
  · rw [hproblem] at hrun
    exact .inl ⟨problem, events, hproblem, hrun⟩
  · rw [hwritten] at hrun
    exact .inr ⟨written, hwritten, hrun⟩

/-- What can be expanded is a payload with well-formed errors, or well-formed errors alone. -/
inductive Expansion (input : Json) : Json → Prop
  | payload {after : Json} {warnings : List ErrorTree.Warning}
      (h : ErrorTree.Expands input ⟨.ok true, after, warnings⟩) : Expansion input after
  | errors {entries : List (String × List String)}
      (habsent : input.field? ErrorTree.errorsField = none)
      (hinput : input = FlatErrors.written entries) :
      Expansion input (ErrorTree.expand (.ofList entries)).toJson

theorem expansion_of_eq_ok {input expanded : Json} (h : expansion input = .ok expanded) :
    Expansion input expanded := by
  rw [expansion] at h
  cases hfield : input.field? ErrorTree.errorsField with
  | some errors =>
      rw [hfield, Option.isSome_some, if_pos rfl] at h
      obtain ⟨done, hdone, rfl⟩ := map_eq_ok_iff.mp h
      have hexpands := ErrorTree.expands_expandPayload input
      -- of the outcomes for a payload only one has errors and a result
      generalize ErrorTree.expandPayload input = outcome at hexpands hdone
      cases hexpands with
      | absent habsent => cases hfield.symm.trans habsent
      | malformed => cases hdone
      | expanded herrors hafter hothers =>
          exact .payload (.expanded herrors hafter hothers)
  | none =>
      rw [hfield, Option.isSome_none, if_neg Bool.false_ne_true, ErrorTree.expandJson_eq] at h
      obtain ⟨flat, hflat, rfl⟩ := map_eq_ok_iff.mp h
      obtain ⟨entries, hinput, rfl⟩ := FlatErrors.ofJson_eq_ok_iff.mp hflat
      exact .errors hfield hinput

/-- Expanding writes its result when there is one, and nothing before. What it has dropped is told
before that. -/
theorem transcript_expand (h : (expand world file).transcript.2.lines ≠ []) :
    ∃ input expanded, (readJson world file).transcript = (.ok input, ⟨[], []⟩)
      ∧ Expansion input expanded
      ∧ (expand world file).transcript
        = (.ok (), ⟨[expanded.page 0], expansionEvents input⟩) := by
  obtain ⟨result, hreads⟩ := reads_readJson world file
  cases result with
  | error problem =>
      rw [transcript_eq_after, expand, after_bind_of_error _ (hreads ⟨[], []⟩)] at h
      exact absurd rfl h
  | ok input =>
      have htold : (expand world file).transcript
          = (do
              let expanded ← check (fun error => .failure (.ofExpansion error)) (expansion input)
              say [expanded.page 0] : Session Unit).after ⟨[], expansionEvents input⟩ := by
        rw [transcript_eq_after, expand, hreads.after_bind, after_bind_of_ok _ (after_tell _ _)]
        rfl
      cases hexpansion : expansion input with
      | error error =>
          -- what was read is no errors, and the line comes after that
          rw [htold, hexpansion, after_bind_of_error _ (after_check _ _ _)] at h
          exact absurd rfl h
      | ok expanded =>
          refine ⟨input, expanded, hreads _, expansion_of_eq_ok hexpansion, ?_⟩
          rw [htold, hexpansion, after_bind_of_ok _ (after_check _ _ _), after_say]
          rfl

/-- **Output is all or nothing.** A run that fails has written nothing to the standard output: a
command ends well with all its lines, or without a line. Once explaining has written a line it goes
through to the end, since every query is rendered, and what expanding writes is the whole expansion
of its input. -/
theorem run_allOrNothing (world : World) (arguments : List String) :
    ((run world arguments).exit = 1 → (run world arguments).stdout = "")
      ∧ (∀ invocation, read world.configFile arguments = .ok invocation →
          (∃ problem events, (invocation.run world).transcript = (.error problem, ⟨[], events⟩)
              ∧ run world arguments
                = ⟨1, "", world.notices invocation.verbose events
                    ++ [.line (problem.line world.colored)]⟩)
            ∨ ∃ written, (invocation.run world).transcript = (.ok (), written)
              ∧ run world arguments
                = ⟨0, unlines written.lines, world.notices invocation.verbose written.events⟩)
      ∧ (∀ names file, (explain world names file).transcript.2.lines ≠ [] →
          (explain world names file).transcript.1 = .ok ())
      ∧ (∀ names query written,
          (render names query).after written = (.ok (query.toParams names), written))
      ∧ (∀ file, (expand world file).transcript.2.lines ≠ [] →
          ∃ input expanded, (readJson world file).transcript = (.ok input, ⟨[], []⟩)
            ∧ Expansion input expanded
            ∧ (expand world file).transcript
              = (.ok (), ⟨[expanded.page 0], expansionEvents input⟩)) := by
  refine ⟨?_, fun invocation => run_cases, ?_, ?_, fun file => transcript_expand⟩
  · intro hexit
    cases hread : read world.configFile arguments with
    | ok invocation =>
        rcases run_cases hread with ⟨problem, events, -, hrun⟩ | ⟨written, -, hrun⟩
        · rw [hrun]
        · rw [hrun] at hexit
          cases hexit
    | error stop =>
        -- such a run ends with another exit code
        rw [run, hread] at hexit
        cases stop <;> cases hexit
  · intro names file hlines
    rcases transcript_cases (allOrNothing_explain world names file) with
      ⟨problem, events, hproblem⟩ | ⟨written, hok⟩
    · rw [hproblem] at hlines
      exact absurd rfl hlines
    · rw [hok]
  · exact fun names query written => reads_render names query written

/-- A payload whose errors are malformed, and parameters with a relationship that is not in compact
form after columns that could be listed: both fail without a line. -/
theorem run_allOrNothing_failing :
    let malformed := inputOnly "\x7b\"message\": \"Invalid\", \"errors\": [\"Required\"]\x7d"
    let notCompact := inputOnly "\x7b\"columns\": [\"id\"], \"relationships\": [\":id\"]\x7d"
    ((run malformed ["expand"]).exit = 1 ∧ (run malformed ["expand"]).stdout = "")
      ∧ (run notCompact ["explain"]).exit = 1 ∧ (run notCompact ["explain"]).stdout = "" := by
  intro malformed notCompact
  have hexpand : (run malformed ["expand"]).exit = 1 := by decide +kernel
  have hexplain : (run notCompact ["explain"]).exit = 1 := by decide +kernel
  exact ⟨⟨hexpand, (run_allOrNothing malformed ["expand"]).1 hexpand⟩,
    hexplain, (run_allOrNothing notCompact ["explain"]).1 hexplain⟩

end ResourceQuery.CommandLine
