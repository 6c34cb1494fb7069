import ResourceQuery.CommandLine.Run

/-!
# What sessions write

A session goes on from what has been written before it, and what it writes stays also when it fails.
`Session.Reads` says that it comes to some result and writes nothing at all, `Session.Silent` that
it writes no line, though it may tell of events, `Session.Succeeds` that it does not fail, and
`Session.AllOrNothing` that a failure leaves the lines as they were. The rules say how these behave
under sequence: a silent session may come before one that is all or nothing
(`Session.Silent.bind_allOrNothing`).
-/

set_option autoImplicit false

namespace ResourceQuery.CommandLine.Session

variable {α β ε : Type}

/-- What a session comes to, and what has been written after it, when something has been written
before it. -/
def after (session : Session α) (written : Written) : Except Problem α × Written :=
  (ExceptT.run session).run written

theorem transcript_eq_after (session : Session α) : session.transcript = session.after ⟨[], []⟩ :=
  rfl

/-! ## Running on -/

/-- A session that has given a value goes on with that value. -/
theorem after_bind_of_ok {session : Session α} {value : α} {written written' : Written}
    (f : α → Session β) (h : session.after written = (.ok value, written')) :
    (session >>= f).after written = (f value).after written' := by
  have hrun : (ExceptT.run session).run written = (.ok value, written') := h
  rw [after, ExceptT.run_bind, StateT.run_bind, hrun]
  rfl

/-- A session that has failed does not go on. -/
theorem after_bind_of_error {session : Session α} {problem : Problem} {written written' : Written}
    (f : α → Session β) (h : session.after written = (.error problem, written')) :
    (session >>= f).after written = (.error problem, written') := by
  have hrun : (ExceptT.run session).run written = (.error problem, written') := h
  rw [after, ExceptT.run_bind, StateT.run_bind, hrun]
  rfl

theorem after_pure (value : α) (written : Written) :
    (pure value : Session α).after written = (.ok value, written) := rfl

theorem after_throw (problem : Problem) (written : Written) :
    (throw problem : Session α).after written = (.error problem, written) := rfl

theorem after_say (lines : List String) (written : Written) :
    (say lines).after written = (.ok (), ⟨written.lines ++ lines, written.events⟩) := rfl

theorem after_tell (events : List Event) (written : Written) :
    (tell events).after written = (.ok (), ⟨written.lines, written.events ++ events⟩) := rfl

theorem after_check (problem : ε → Problem) (result : Except ε α) (written : Written) :
    (check problem result).after written = (result.mapError problem, written) := by
  cases result with
  | ok value => rfl
  | error error => rfl

/-! ## Reading -/

/-- A session comes to a result and writes nothing. -/
def Reads (session : Session α) (result : Except Problem α) : Prop :=
  ∀ written, session.after written = (result, written)

theorem reads_pure (value : α) : Reads (pure value) (.ok value) := after_pure value

theorem reads_throw (problem : Problem) : Reads (throw problem : Session α) (.error problem) :=
  after_throw problem

theorem reads_check (problem : ε → Problem) (result : Except ε α) :
    Reads (check problem result) (result.mapError problem) := after_check problem result

theorem Reads.bind {session : Session α} {f : α → Session β} {result : Except Problem α}
    (h : Reads session result) (hf : ∀ value, ∃ next, Reads (f value) next) :
    ∃ next, Reads (session >>= f) next := by
  cases result with
  | error problem => exact ⟨.error problem, fun written => after_bind_of_error f (h written)⟩
  | ok value =>
      obtain ⟨next, hnext⟩ := hf value
      exact ⟨next, fun written => (after_bind_of_ok f (h written)).trans (hnext written)⟩

/-- A session that reads a value goes on with it as if nothing had been before. -/
theorem Reads.after_bind {session : Session α} {value : α} (h : Reads session (.ok value))
    (f : α → Session β) (written : Written) :
    (session >>= f).after written = (f value).after written :=
  after_bind_of_ok f (h written)

/-- A session writes no line. -/
def Silent (session : Session α) : Prop :=
  ∀ written, (session.after written).2.lines = written.lines

def Succeeds (session : Session α) : Prop :=
  ∀ written, ∃ value, (session.after written).1 = .ok value

/-- A session that fails has written no line. -/
def AllOrNothing (session : Session α) : Prop :=
  ∀ written problem, (session.after written).1 = .error problem →
    (session.after written).2.lines = written.lines

theorem Reads.silent {session : Session α} {result : Except Problem α}
    (h : Reads session result) : Silent session := fun written => by rw [h]

theorem silent_tell (events : List Event) : Silent (tell events) :=
  fun written => by rw [after_tell]

theorem succeeds_say (lines : List String) : Succeeds (say lines) :=
  fun written => ⟨(), by rw [after_say]⟩

theorem Silent.bind {session : Session α} {f : α → Session β} (h : Silent session)
    (hf : ∀ value, Silent (f value)) : Silent (session >>= f) := by
  intro written
  have hlines : (session.after written).2.lines = written.lines := h written
  rcases hrun : session.after written with ⟨_ | value, written'⟩
  case error problem =>
    rw [after_bind_of_error f hrun]
    rwa [hrun] at hlines
  case ok =>
    rw [hrun] at hlines
    rw [after_bind_of_ok f hrun, hf value written']
    exact hlines

theorem Succeeds.bind {session : Session α} {f : α → Session β} (h : Succeeds session)
    (hf : ∀ value, Succeeds (f value)) : Succeeds (session >>= f) := by
  intro written
  obtain ⟨value, hvalue⟩ := h written
  have hrun : session.after written = (.ok value, (session.after written).2) := by
    rw [← hvalue]
  rw [after_bind_of_ok f hrun]
  exact hf value _

theorem Succeeds.allOrNothing {session : Session α} (h : Succeeds session) :
    AllOrNothing session := by
  intro written problem hproblem
  obtain ⟨value, hvalue⟩ := h written
  rw [hvalue] at hproblem
  cases hproblem

/-- A session that writes no line may fail before one that is all or nothing. -/
theorem Silent.bind_allOrNothing {session : Session α} {f : α → Session β} (h : Silent session)
    (hf : ∀ value, AllOrNothing (f value)) : AllOrNothing (session >>= f) := by
  intro written problem hproblem
  have hlines : (session.after written).2.lines = written.lines := h written
  rcases hrun : session.after written with ⟨_ | value, written'⟩
  case error cause =>
    rw [after_bind_of_error f hrun]
    rwa [hrun] at hlines
  case ok =>
    rw [hrun] at hlines
    rw [after_bind_of_ok f hrun] at hproblem ⊢
    rw [hf value written' problem hproblem]
    exact hlines

/-! ## What the commands read -/

theorem reads_readInput (world : World) (file : Option String) :
    ∃ result, Reads (readInput world file) result := by
  cases file with
  | none => exact ⟨_, reads_check _ _⟩
  | some path => exact ⟨_, reads_check _ _⟩

theorem reads_readJson (world : World) (file : Option String) :
    ∃ result, Reads (readJson world file) result := by
  obtain ⟨result, hinput⟩ := reads_readInput world file
  refine hinput.bind fun text => ?_
  cases Json.read? text with
  | none => exact ⟨_, reads_throw _⟩
  | some value => exact ⟨_, reads_pure value⟩

theorem reads_readParams (world : World) (file : Option String) :
    ∃ result, Reads (readParams world file) result := by
  obtain ⟨result, hjson⟩ := reads_readJson world file
  refine hjson.bind fun input => ?_
  cases input.fields? with
  | none => exact ⟨_, reads_throw _⟩
  | some params => exact ⟨_, reads_pure params⟩

/-- Loading the names tells where they are from, and writes no line. -/
theorem silent_loadNames (world : World) (config : Option String) :
    Silent (loadNames world config) :=
  (silent_tell _).bind fun _ => (reads_check _ _).silent

end ResourceQuery.CommandLine.Session
