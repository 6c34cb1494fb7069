import ResourceQuery.Proofs.ErrorTree.Payload
import ResourceQuery.Repository

/-!
# Runs of a repository

A run is a row of calls over a transport, which may remember all that it was asked and answer as it
likes. Its steps are the calls with their replies, and `Answers` says how the transport comes to
them. A recording transport shows what it is handed: one request for each call, since rendering a
query never fails (`perform_recorded`). Main statement: whatever the transport is, each call sends
the request that `Sends` describes and comes to what `Settles` says about its own reply, and the
calls before it do not matter (`performAll_settles`).
-/

set_option autoImplicit false

namespace ResourceQuery.Repository

variable {σ : Type} {send : Request → StateM σ Reply} {repository : Repository}

/-! ## Requests -/

/-- The request of a call, with the parameters that its query has. -/
def request (repository : Repository) (call : Call) : Request :=
  repository.requestWith call
    ((call.query?.map fun query => query.build.toParams repository.names).getD [])

/-- The request for a call, and the method it is sent with. Reads carry the parameters of their
query and no body, and writes carry their data and no parameters. -/
inductive Sends (repository : Repository) : Call → Method → Request → Prop
  | index (query : QueryBuilder) :
      Sends repository (.index query) .get
        ⟨repository.resource, .index, none, query.build.toParams repository.names, none⟩
  | single (id : UInt64) (query : QueryBuilder) :
      Sends repository (.single id query) .get
        ⟨repository.resource, .single, some id, query.build.toParams repository.names, none⟩
  | store (data : Json) :
      Sends repository (.store data) .post ⟨repository.resource, .store, none, [], some data⟩
  | update (id : UInt64) (data : Json) :
      Sends repository (.update id data) .put
        ⟨repository.resource, .update, some id, [], some data⟩

theorem sends_request (repository : Repository) (call : Call) :
    Sends repository call (repository.request call).action.method (repository.request call) := by
  cases call with
  | index query => exact .index query
  | single id query => exact .single id query
  | store data => exact .store data
  | update id data => exact .update id data

/-- Every call becomes its request. -/
theorem prepare_eq_ok (repository : Repository) (call : Call) :
    repository.prepare call = .ok (repository.request call) := by
  have hparams : repository.renderParams call = .ok (repository.request call).params := by
    cases call with
    -- reads have a query to render
    | index query => exact query.build.renderParams_eq_ok repository.names
    | single id query => exact query.build.renderParams_eq_ok repository.names
    -- writes do not
    | store data => rfl
    | update id data => rfl
  rw [prepare, hparams]
  rfl

/-! ## Replies -/

/-- What is told when expanding the errors of a refused write fails. -/
def complaints (request : Request) : Decoded Bool → List Event
  | .ok _ => []
  | .error error => [leftUnexpanded request (.malformedErrors error)]

/-- What a reply to a request comes to: the result of the call, and what is told about it. -/
inductive Settles (request : Request) : Reply → Except Failure Response → List Event → Prop
  | granted (response : Response) : Settles request (.granted response) (.ok response) []
  | unreachable (text : String) :
      Settles request (.unreachable text) (.error (.transport text)) [unanswered request text]
  | refusedRead (hread : request.action = .index ∨ request.action = .single) (status : UInt16)
      (payload : Json) :
      Settles request (.refused status payload) (.error (.response status payload)) []
  | refusedWrite (hwrite : request.action = .store ∨ request.action = .update) (status : UInt16)
      {payload after : Json} {outcome : Decoded Bool} {warnings : List ErrorTree.Warning}
      (hexpands : ErrorTree.Expands payload ⟨outcome, after, warnings⟩) :
      Settles request (.refused status payload) (.error (.response status after))
        (warnings.map (·.event) ++ complaints request outcome)

/-- Errors that cannot be read are malformed, and it is told so. -/
theorem refusalEvents_write {request : Request} (hwrite : request.action.isWrite = true)
    (payload : Json) :
    refusalEvents request payload
      = (ErrorTree.expandPayload payload).warnings.map (·.event)
        ++ complaints request (ErrorTree.expandPayload payload).result := by
  rw [refusalEvents, if_pos hwrite]
  have hexpands := ErrorTree.expands_expandPayload payload
  generalize ErrorTree.expandPayload payload = expanded at hexpands
  cases hexpands with
  | absent => rfl
  | expanded => rfl
  | malformed _ _ hread =>
      obtain ⟨found, expected, rfl⟩ := FlatErrors.eq_unexpected_of_ofJson hread
      rfl

theorem settles_resultOf (request : Request) (reply : Reply) :
    Settles request reply (resultOf request reply) (replyEvents request reply) := by
  cases reply with
  | granted response => exact .granted response
  | unreachable text => exact .unreachable text
  | refused status payload =>
      rw [resultOf, replyEvents, refusedPayload]
      cases hwrite : request.action.isWrite with
      | false =>
          -- reads keep the payload as it came
          have hread : request.action = .index ∨ request.action = .single := by
            cases haction : request.action <;> simp_all [Action.isWrite]
          rw [refusalEvents, hwrite]
          exact .refusedRead hread status payload
      | true =>
          -- writes have their errors expanded
          have hstore : request.action = .store ∨ request.action = .update := by
            cases haction : request.action <;> simp_all [Action.isWrite]
          rw [refusalEvents_write hwrite]
          exact .refusedWrite hstore status (ErrorTree.expands_expandPayload payload)

/-! ## Steps -/

/-- A call, and the reply to its request. -/
structure Step where
  call : Call
  reply : Reply

/-- What comes of a step. It is about this step only. -/
def Step.exchange (repository : Repository) (step : Step) : Exchange :=
  settled (repository.request step.call) step.call step.reply

/-- What the transport sees of a step. -/
def Step.sent (repository : Repository) (step : Step) : Request × Reply :=
  (repository.request step.call, step.reply)

/-- A transport that also keeps a record of its requests and replies. -/
def recorded (send : Request → StateM σ Reply) (request : Request) :
    StateT (List (Request × Reply)) (StateM σ) Reply := do
  let reply ← send request
  modify (· ++ [(request, reply)])
  return reply

/-- A transport that gives out replies one by one, whatever it is asked. -/
def answering (_ : Request) : StateM (List Reply) Reply := do
  match ← get with
  | [] => return default
  | reply :: rest =>
    set rest
    return reply

/-- All that came of the calls, the record of the transport, and its last state. -/
def recordedRun (send : Request → StateM σ Reply) (repository : Repository) (calls : List Call)
    (record : List (Request × Reply)) (state : σ) :
    (List Exchange × List (Request × Reply)) × σ :=
  ((performAll (recorded send) repository calls).run record).run state

/-- A call hands the transport exactly one request, and comes to what the reply to it gives. -/
theorem perform_recorded {step : Step} {state state' : σ}
    (hreply : (send (repository.request step.call)).run state = (step.reply, state'))
    (record : List (Request × Reply)) :
    ((perform (recorded send) repository step.call).run record).run state
      = ((step.exchange repository, record ++ [step.sent repository]), state') := by
  have hsend : ((recorded send (repository.request step.call)).run record).run state
      = ((step.reply, record ++ [step.sent repository]), state') := by
    show (send (repository.request step.call) >>= fun reply =>
      pure (reply, record ++ [(repository.request step.call, reply)])).run state = _
    rw [StateT.run_bind, hreply]
    rfl
  rw [perform, prepare_eq_ok]
  show ((recorded send (repository.request step.call) >>= fun reply =>
    pure (settled (repository.request step.call) step.call reply)).run record).run state = _
  rw [StateT.run_bind, StateT.run_bind, hsend]
  rfl

/-! ## Runs -/

/-- The transport, from one state to another, gives the replies of some steps to the requests of
their calls. -/
inductive Answers (send : Request → StateM σ Reply) (repository : Repository) :
    σ → List Step → σ → Prop
  | nil (state : σ) : Answers send repository state [] state
  | cons {step : Step} {steps : List Step} {state state' state'' : σ}
      (hreply : (send (repository.request step.call)).run state = (step.reply, state'))
      (hrest : Answers send repository state' steps state'') :
      Answers send repository state (step :: steps) state''

/-- Every transport answers every row of calls. -/
theorem exists_answers (send : Request → StateM σ Reply) (repository : Repository)
    (calls : List Call) (state : σ) :
    ∃ steps state', steps.map Step.call = calls ∧ Answers send repository state steps state' := by
  induction calls generalizing state with
  | nil => exact ⟨[], state, rfl, .nil state⟩
  | cons call rest ih =>
      obtain ⟨steps, last, hcalls, hrest⟩ := ih ((send (repository.request call)).run state).2
      exact ⟨⟨call, ((send (repository.request call)).run state).1⟩ :: steps, last,
        by rw [List.map_cons, hcalls], .cons rfl hrest⟩

/-- Every row of replies is that of some transport. -/
theorem answers_answering (repository : Repository) (steps : List Step) (more : List Reply) :
    Answers answering repository (steps.map Step.reply ++ more) steps more := by
  induction steps with
  | nil => exact .nil more
  | cons step rest ih => exact .cons rfl ih

/-- Each step adds its own exchange and its own request to a run. -/
theorem recordedRun_of_answers {steps : List Step} {state state' : σ}
    (h : Answers send repository state steps state') (record : List (Request × Reply)) :
    recordedRun send repository (steps.map Step.call) record state
      = ((steps.map (Step.exchange repository), record ++ steps.map (Step.sent repository)),
        state') := by
  induction h generalizing record with
  | nil state =>
      rw [List.map_nil, List.map_nil, List.map_nil, List.append_nil]
      rfl
  | @cons step steps state state' state'' hreply _ ih =>
      -- this step first, and the others from the state and the record that it leaves
      have hstep := perform_recorded hreply record
      have hrest := ih (record ++ [step.sent repository])
      rw [recordedRun] at hrest
      rw [recordedRun, List.map_cons, performAll, StateT.run_bind, StateT.run_bind, hstep]
      show ((performAll (recorded send) repository (steps.map Step.call) >>= fun exchanges =>
        pure (step.exchange repository :: exchanges)).run
          (record ++ [step.sent repository])).run state' = _
      rw [StateT.run_bind, StateT.run_bind, hrest, List.map_cons, List.map_cons,
        List.append_assoc]
      rfl

/-- **Every call is settled by its own reply.** Over any transport, a row of calls hands it the
requests of the calls, one for each, and what comes of a call is given by the call and the reply to
its request. Every row of replies occurs. The request of a call is the one that `Sends` describes,
and its reply comes to what `Settles` says. -/
theorem performAll_settles (repository : Repository) :
    (∀ (σ : Type) (send : Request → StateM σ Reply) (calls : List Call) (state : σ),
        ∃ (steps : List Step) (state' : σ), steps.map Step.call = calls
          ∧ recordedRun send repository calls [] state
            = ((steps.map (Step.exchange repository), steps.map (Step.sent repository)), state'))
      ∧ (∀ (steps : List Step) (more : List Reply),
          recordedRun answering repository (steps.map Step.call) []
              (steps.map Step.reply ++ more)
            = ((steps.map (Step.exchange repository), steps.map (Step.sent repository)), more))
      ∧ ∀ step : Step, ∃ (request : Request) (told : List Event),
          step.sent repository = (request, step.reply)
            ∧ Sends repository step.call request.action.method request
            ∧ Settles request step.reply (step.exchange repository).result told
            ∧ (step.exchange repository).events = requestEvents request step.call ++ told := by
  refine ⟨?_, ?_, ?_⟩
  · -- every transport gives replies that some steps have
    intro σ send calls state
    obtain ⟨steps, state', hcalls, hanswers⟩ := exists_answers send repository calls state
    refine ⟨steps, state', hcalls, ?_⟩
    rw [← hcalls, recordedRun_of_answers hanswers, List.nil_append]
  · -- every row of replies is given by some transport
    intro steps more
    rw [recordedRun_of_answers (answers_answering repository steps more), List.nil_append]
  · -- what comes of a step, by its call and its reply
    intro step
    have hsends := sends_request repository step.call
    have hsettles := settles_resultOf (repository.request step.call) step.reply
    exact ⟨repository.request step.call, _, rfl, hsends, hsettles, rfl⟩

/-- A read that is granted, a write that is refused with malformed errors, and a read that is not
answered. -/
theorem performAll_settles_mixed :
    let repository : Repository := ⟨"posts", .standard⟩
    let title : Json := .object [("title", .string "")]
    let malformed : Json := .object [("errors", .string "Required")]
    let steps : List Step :=
      [⟨.indexWith (·.select ["id"]), .granted ⟨200, .array []⟩⟩,
        ⟨.store title, .refused 422 malformed⟩, ⟨.singleWith 7 id, .unreachable "down"⟩]
    let run := recordedRun answering repository (steps.map Step.call) [] (steps.map Step.reply)
    run.1.2.map Prod.fst
        = [⟨"posts", .index, none, [("columns", .array [.string "id"])], none⟩,
          ⟨"posts", .store, none, [], some title⟩, ⟨"posts", .single, some 7, [], none⟩]
      ∧ run.1.1.map Exchange.result
        = [.ok ⟨200, .array []⟩, .error (.response 422 malformed), .error (.transport "down")]
      ∧ run.2 = [] := by
  intro repository title malformed steps run
  have hrun : run
      = ((steps.map (Step.exchange repository), steps.map (Step.sent repository)), []) :=
    (performAll_settles repository).2.1 steps []
  rw [hrun]
  exact ⟨rfl, rfl, rfl⟩

end ResourceQuery.Repository
