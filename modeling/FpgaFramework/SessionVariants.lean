/-
The two variants of a session.  What a session makes of a message from its user
depends on the messages alone, and a reader of the messages says what it is.  The
readers of the two variants agree but on a message that is neither an input nor a
configuration; and in one state the variants differ only in the order in which
nodes are ready.
-/
import FpgaFramework.SessionOwners

namespace FpgaFramework

open scoped List

/-- What a session makes of a message from its user. -/
inductive Decision where
  | configure
  | dispatch
  | reconfigure
  | ends
  | ignores
  | faults
deriving Repr, DecidableEq

/-- The session takes no message after this. -/
def Decision.last : Decision → Bool
  | .reconfigure | .ends | .faults => true
  | _ => false

/-- What the messages so far have made of a session. -/
inductive Reader where
  | awaiting
  | serving (config : ValidMessage)
  | closed
deriving DecidableEq

namespace Reader

/-- The decision on the next message. -/
def next (variant : Variant) :
    Reader → Except ErrorCode ValidMessage → Decision × Reader
  | .awaiting, .ok message =>
      if message.1.isValidConfig then (.configure, .serving message)
      else (.ends, .closed)
  | .serving config, .ok message =>
      match message.1.isValidData config.1.inputSize with
      | none => (.faults, .closed)
      | some true => (.dispatch, .serving config)
      | some false =>
          if message.1.isValidConfig then (.reconfigure, .closed)
          else
            match variant with
            | .queue => (.ends, .closed)
            | .stack => (.ignores, .serving config)
  | _, _ => (.ends, .closed)

def decisions (variant : Variant) :
    Reader → List (Except ErrorCode ValidMessage) → List Decision
  | _, [] => []
  | reader, result :: rest =>
      (reader.next variant result).1 ::
        decisions variant (reader.next variant result).2 rest

/-- The reader after these messages. -/
def after (variant : Variant) (reader : Reader)
    (received : List (Except ErrorCode ValidMessage)) : Reader :=
  received.foldl (fun reader result => (reader.next variant result).2) reader

/-- After its first configuration the user sends only inputs and configurations. -/
def clean : Reader → List (Except ErrorCode ValidMessage) → Bool
  | .serving config, .ok message :: rest =>
      !config.untaken message &&
        clean ((Reader.serving config).next .queue (.ok message)).2 rest
  | reader, result :: rest => clean (reader.next .queue result).2 rest
  | _, [] => true

variable {variant : Variant}

theorem decisions_append (reader : Reader)
    (received rest : List (Except ErrorCode ValidMessage)) :
    decisions variant reader (received ++ rest) =
      decisions variant reader received ++
        decisions variant (after variant reader received) rest := by
  induction received generalizing reader with
  | nil => rfl
  | cons result received ih =>
      simp only [List.cons_append, decisions, ih]
      rfl

theorem after_append (reader : Reader)
    (received rest : List (Except ErrorCode ValidMessage)) :
    after variant reader (received ++ rest) =
      after variant (after variant reader received) rest :=
  List.foldl_append

/-- The variants part at an untaken message and nowhere else. -/
theorem next_queue_eq_stack {reader : Reader}
    {result : Except ErrorCode ValidMessage}
    (htaken : ∀ config message, reader = .serving config →
      result = .ok message → config.untaken message = false) :
    reader.next .queue result = reader.next .stack result := by
  cases reader with
  | awaiting | closed => cases result <;> rfl
  | serving config =>
      cases result with
      | error ec => rfl
      | ok message =>
          have hnot := htaken config message rfl rfl
          simp only [next]
          split
          · rfl
          · rfl
          · next hdata =>
              have hvalid : message.1.isValidConfig = true := by
                simpa [ValidMessage.untaken, hdata] using hnot
              rw [if_pos hvalid, if_pos hvalid]

theorem next_of_untaken {config message : ValidMessage}
    (h : config.untaken message = true) :
    (Reader.serving config).next .queue (.ok message) = (.ends, .closed) ∧
      (Reader.serving config).next .stack (.ok message) =
        (.ignores, .serving config) := by
  simp only [ValidMessage.untaken, Bool.and_eq_true, beq_iff_eq,
    Bool.not_eq_eq_eq_not, Bool.not_true] at h
  constructor
  · simp [next, h]
  · simp [next, h]

theorem clean_cons (reader : Reader) (result : Except ErrorCode ValidMessage)
    (rest : List (Except ErrorCode ValidMessage)) :
    reader.clean (result :: rest) = true ↔
      (∀ config message, reader = .serving config → result = .ok message →
        config.untaken message = false) ∧
          (reader.next .queue result).2.clean rest = true := by
  cases reader with
  | awaiting | closed =>
      simp [clean]
  | serving config =>
      cases result with
      | error ec => simp [clean]
      | ok message => simp [clean]

/-- The variants decide alike on a stream of messages exactly if it is clean. -/
theorem decisions_eq_iff_clean (reader : Reader)
    (received : List (Except ErrorCode ValidMessage)) :
    decisions .queue reader received = decisions .stack reader received ↔
      reader.clean received = true := by
  induction received generalizing reader with
  | nil => simp [decisions, clean]
  | cons result rest ih =>
      rw [clean_cons, decisions, decisions, List.cons.injEq]
      constructor
      · rintro ⟨hfirst, hrest⟩
        have htaken : ∀ config message, reader = .serving config →
            result = .ok message → config.untaken message = false := by
          rintro config message rfl rfl
          by_contra huntaken
          have hnext := next_of_untaken (Bool.eq_true_of_not_eq_false huntaken)
          rw [hnext.1, hnext.2] at hfirst
          cases hfirst
        rw [← next_queue_eq_stack htaken, ih] at hrest
        exact ⟨htaken, hrest⟩
      · rintro ⟨htaken, hrest⟩
        rw [← next_queue_eq_stack htaken, ih]
        exact ⟨rfl, hrest⟩

theorem next_closed {reader : Reader} {result : Except ErrorCode ValidMessage}
    (h : (reader.next variant result).1.last = true) :
    (reader.next variant result).2 = .closed := by
  cases reader with
  | closed => rfl
  | awaiting =>
      cases result with
      | error ec => rfl
      | ok message =>
          simp only [next] at h ⊢
          split at h
          · cases h
          · next hinvalid => rw [if_neg hinvalid]
  | serving config =>
      cases result with
      | error ec => rfl
      | ok message =>
          simp only [next] at h ⊢
          split at h
          · rfl
          · cases h
          · split at h
            · next hvalid => rw [if_pos hvalid]
            · next hinvalid =>
                rw [if_neg hinvalid]
                cases variant with
                | queue => rfl
                | stack => cases h

theorem after_closed (received : List (Except ErrorCode ValidMessage)) :
    after variant .closed received = .closed := by
  induction received with
  | nil => rfl
  | cons result rest ih => exact ih

/-- A last decision closes the reader for good. -/
theorem closed_of_last (reader : Reader)
    (received : List (Except ErrorCode ValidMessage)) {decision : Decision}
    (hmem : decision ∈ decisions variant reader received)
    (hlast : decision.last = true) : after variant reader received = .closed := by
  induction received generalizing reader with
  | nil => cases hmem
  | cons result rest ih =>
      rcases List.mem_cons.mp hmem with rfl | hrest
      · rw [after, List.foldl_cons, next_closed hlast]
        exact after_closed rest
      · exact ih _ hrest

end Reader

namespace Session

variable {N : Type} {variant : Variant} {session after : Session N}
  {action : Action N}

/-- What is read from the user's connection with the step. -/
def Action.reads : Action N → Option (Except ErrorCode ValidMessage)
  | .firstMessage result | .userMessage result => some result
  | _ => none

/-- What a session has made of a message, seen from its state before and after. -/
def decision (before after : Session N) : Decision :=
  if after.fault ≠ none then .faults
  else if after.phase = .returned then .ends
  else if before.accepted.length < after.accepted.length then .dispatch
  else if before.acceptedConfigs.length < after.acceptedConfigs.length then
    if before.phase = .awaitingConfig then .configure else .reconfigure
  else .ignores

def noteDecision (before : Session N) (action : Action N) (after : Session N) :
    List (Except ErrorCode ValidMessage × Decision) :=
  action.reads.toList.map fun result => (result, before.decision after)

/-- The reader knows what the session will do with the next message. -/
structure Follows (session : Session N) (reader : Reader) : Prop where
  awaiting : session.fault = none → session.phase = .awaitingConfig →
    reader = .awaiting
  serving : session.fault = none → session.phase.firstConfig = true →
    ∃ config, session.config = some config ∧ reader = .serving config.message

theorem Follows.of_same {reader : Reader} (hfollows : session.Follows reader)
    (hrunning : session.Running)
    (hawaiting : after.phase = .awaitingConfig → session.phase = .awaitingConfig)
    (hphase : after.phase.firstConfig = true → session.phase.firstConfig = true)
    (hconfig : after.phase.firstConfig = true → after.config = session.config) :
    after.Follows reader where
  awaiting _ h := hfollows.awaiting hrunning.1 (hawaiting h)
  serving _ h := by
    rw [hconfig h]
    exact hfollows.serving hrunning.1 (hphase h)

/-- A session that takes no further message. -/
theorem Follows.closed (hawaiting : after.phase ≠ .awaitingConfig)
    (hphase : after.phase.firstConfig = true → after.fault ≠ none) :
    after.Follows .closed where
  awaiting _ h := absurd h hawaiting
  serving hfault h := absurd hfault (hphase h)

theorem Follows.firstMessage {reader : Reader}
    (hfollows : session.Follows reader) (hrunning : session.Running)
    (hphase : session.phase = .awaitingConfig)
    (result : Except ErrorCode ValidMessage) :
    session.decision (session.firstMessage variant result) =
        (reader.next variant result).1 ∧
      (session.firstMessage variant result).Follows
        (reader.next variant result).2 := by
  rw [hfollows.awaiting hrunning.1 hphase]
  cases result with
  | error ec =>
      constructor
      · simp [decision, Session.firstMessage, hrunning.1, Reader.next]
      · exact Follows.closed (fun h => by cases h) (fun h => by cases h)
  | ok message =>
      simp only [Session.firstMessage, Reader.next]
      split
      · constructor
        · simp [decision, configureNodes, hrunning.1, hphase]
        · exact ⟨fun _ h => (by cases h), fun _ _ => ⟨_, rfl, rfl⟩⟩
      · constructor
        · simp [decision, hrunning.1]
        · exact Follows.closed (fun h => by cases h) (fun h => by cases h)

theorem decision_acceptInput (hrunning : session.Running)
    (hphase : session.phase = .receiving) (config : Held)
    (message : ValidMessage) :
    session.decision (session.acceptInput config message) = .dispatch := by
  have hmore : session.accepted.length <
      (session.acceptInput config message).accepted.length := by
    simp [Session.acceptInput, dispatchInput]
  have hfault : (session.acceptInput config message).fault = none := hrunning.1
  have hstays : (session.acceptInput config message).phase ≠ .returned := by
    intro hreturned
    rcases phase_acceptInput hphase hreturned with hafter | hafter <;> cases hafter
  simp [decision, hfault, hstays, hmore]

theorem Follows.acceptInput {reader : Reader}
    (hfollows : session.Follows reader) (hrunning : session.Running)
    (hphase : session.phase = .receiving) (config : Held)
    (message : ValidMessage) :
    (session.acceptInput config message).Follows reader := by
  apply hfollows.of_same hrunning
  · intro hawaiting
    rcases phase_acceptInput hphase hawaiting with hafter | hafter <;> cases hafter
  · simp [hphase, Phase.firstConfig]
  · exact fun _ => rfl

theorem Follows.userMessage {reader : Reader}
    (hfollows : session.Follows reader) (hrunning : session.Running)
    (hphase : session.phase = .receiving) {config : Held}
    (hconfig : session.config = some config)
    (result : Except ErrorCode ValidMessage) :
    session.decision (session.userMessage variant config result) =
        (reader.next variant result).1 ∧
      (session.userMessage variant config result).Follows
        (reader.next variant result).2 := by
  obtain ⟨stored, hstored, rfl⟩ :=
    hfollows.serving hrunning.1 (by simp [hphase, Phase.firstConfig])
  rw [hconfig, Option.some.injEq] at hstored
  subst hstored
  cases result with
  | error ec =>
      constructor
      · simp [decision, Session.userMessage, endSession, hrunning.1, Reader.next]
      · exact Follows.closed (fun h => by cases h) (fun h => by cases h)
  | ok message =>
      simp only [Session.userMessage, Reader.next]
      cases message.1.isValidData config.message.1.inputSize with
      | none =>
          constructor
          · simp [decision]
          · exact Follows.closed (by simp [hphase]) (fun _ h => by cases h)
      | some valid =>
          cases valid with
          | true =>
              exact ⟨decision_acceptInput hrunning hphase config message,
                hfollows.acceptInput hrunning hphase config message⟩
          | false =>
              simp only
              split
              · constructor
                · simp [decision, Session.acceptConfig, hrunning.1, hphase]
                · exact Follows.closed (fun h => by cases h)
                    (fun h => by cases h)
              · cases variant with
                | queue =>
                    constructor
                    · simp [decision, endSession, dropMessage, hrunning.1]
                    · exact Follows.closed (fun h => by cases h)
                        (fun h => by cases h)
                | stack =>
                    constructor
                    · simp [decision, dropMessage, hrunning.1, hphase]
                    · exact hfollows.of_same hrunning id id (fun _ => rfl)

/-- The inputs among the messages. -/
def inputsOf (notes : List (Except ErrorCode ValidMessage × Decision)) :
    List ValidMessage :=
  notes.filterMap fun entry =>
    if entry.2 = .dispatch then entry.1.toOption else none

theorem Transition.accepted_inputs (hrunning : session.Running)
    (h : Transition variant session action after) :
    after.accepted.map (fun input => input.message) =
      session.accepted.map (fun input => input.message) ++
        inputsOf (noteDecision session action after) := by
  have hsame : after.accepted = session.accepted →
      session.decision after ≠ .dispatch := by
    intro heq
    simp only [decision, heq, Nat.lt_irrefl, ↓reduceIte]
    split
    · simp
    · split
      · simp
      · split
        · split <;> simp
        · simp
  have hkept : after.accepted = session.accepted →
      after.accepted.map (fun input => input.message) =
        session.accepted.map (fun input => input.message) ++
          inputsOf (noteDecision session action after) := by
    intro heq
    have hnone : inputsOf (noteDecision session action after) = [] := by
      cases hreads : action.reads with
      | none => simp [inputsOf, noteDecision, hreads]
      | some result => simp [inputsOf, noteDecision, hreads, hsame heq]
    rw [hnone, heq, List.append_nil]
  cases h with
  | @userInput message config hphase =>
      have hinputs : inputsOf (noteDecision session (.userMessage (.ok message))
          (session.acceptInput config message)) = [message] := by
        simp [inputsOf, noteDecision, Action.reads, Except.toOption,
          decision_acceptInput hrunning hphase]
      rw [hinputs]
      exact List.map_append
  | _ => exact hkept rfl

/-- A step without a message leaves the reader where it is. -/
theorem Follows.transition {reader : Reader} (hfollows : session.Follows reader)
    (hwaits : session.MainWaits) (hrunning : session.Running)
    (h : Transition variant session action after)
    (hreads : action.reads = none) : after.Follows reader := by
  cases h with
  | firstError | firstInvalid | firstConfig | userError | userDivision | userInput
  | userConfig | userInvalidQueue | userInvalidStack => cases hreads
  | respError | drained | stopped =>
      exact hfollows.of_same hrunning (fun h => by cases h) (fun h => by cases h)
        (fun h => by cases h)
  | configured hphase | respSent hphase =>
      exact hfollows.of_same hrunning (fun h => by cases h)
        (fun _ => by simp [hphase, Phase.firstConfig]) (fun _ => rfl)
  | resumed _ _ hwaiters =>
      exact hfollows.of_same hrunning
        (fun hphase => phase_of_resumed hphase (by simp))
        (hwaits.firstConfig_of_resumed hwaiters) (fun _ => rfl)
  | _ => exact hfollows.of_same hrunning id id (fun _ => rfl)

/-- What the reader says of a run, its messages and what was made of them. -/
structure ReadInv (variant : Variant) (session : Session N)
    (notes : List (Except ErrorCode ValidMessage × Decision)) : Prop where
  mainWaits : session.MainWaits
  follows : session.Follows
    (Reader.after variant .awaiting (notes.map Prod.fst))
  decisions : notes.map Prod.snd =
    Reader.decisions variant .awaiting (notes.map Prod.fst)
  inputs : session.accepted.map (fun input => input.message) = inputsOf notes

theorem ReadInv.initial {nodes : List N} {config data receiver : Counter} :
    ReadInv variant (initial nodes config data receiver) [] :=
  ⟨rfl, ⟨fun _ _ => rfl, nofun⟩, rfl, rfl⟩

/-- The sessions differ in the order of ready nodes, tasks and loops only. -/
def Alike (session other : Session N) : Prop :=
  ∃ pool tasks loops, session.pool.Reordered pool ∧
    tasks ~ session.configTasks ∧ loops ~ session.loops ∧
      other = { session with
        pool := pool
        configTasks := tasks
        loops := loops }

theorem Alike.refl (session : Session N) : session.Alike session :=
  ⟨session.pool, session.configTasks, session.loops,
    AsyncPool.Reordered.refl _, List.Perm.refl _, List.Perm.refl _, rfl⟩

theorem Alike.rel_refl (result : Option (Session N)) :
    Option.Rel Alike result result := by
  cases result with
  | none => exact Option.Rel.none
  | some session => exact Option.Rel.some (Alike.refl session)

theorem alike_configureNodes (session : Session N) (message : ValidMessage) :
    (session.configureNodes .queue message).Alike
      (session.configureNodes .stack message) := by
  have hpool := (AsyncPool.Reordered.refl session.pool).pushAll .queue .stack
    session.nodes
  have hlength := hpool.items.length_eq
  refine ⟨(session.configureNodes .stack message).pool,
    (session.configureNodes .stack message).configTasks, session.loops,
    ⟨List.Perm.refl _, hpool.suspended, hpool.woken⟩, ?_, List.Perm.refl _, ?_⟩
  · exact (hpool.items.map _).append_right _
  · simp only [configureNodes, AsyncPool.popAll, Variant.discipline, hlength]

theorem alike_startLoops (session : Session N) :
    (startLoops .queue session).Alike (startLoops .stack session) := by
  have hpool := (AsyncPool.Reordered.refl session.pool.popAll.2).pushAll .queue
    .stack session.pool.popAll.1
  exact ⟨_, _, _, hpool, List.Perm.refl _, List.Perm.refl _, rfl⟩

theorem alike_configHandler (session : Session N) (task : ConfigTask N)
    (rest : List (ConfigTask N)) (ec : Option ErrorCode) :
    (session.configHandler .queue task rest ec).Alike
      (session.configHandler .stack task rest ec) := by
  cases ec with
  | none =>
      have hpool := (AsyncPool.Reordered.refl session.pool).push .queue .stack
        task.node
      exact ⟨_, _, _, hpool, List.Perm.refl _, List.Perm.refl _, rfl⟩
  | some ec => exact Alike.refl _

theorem alike_userMessage (session : Session N) (config : Held)
    (hconfig : session.config = some config)
    (result : Except ErrorCode ValidMessage)
    (htaken : session.drops result = false) :
    session.userMessage .queue config result =
      session.userMessage .stack config result := by
  cases result with
  | error ec => rfl
  | ok message =>
      simp only [drops, hconfig, ValidMessage.untaken] at htaken
      simp only [userMessage]
      split
      · rfl
      · rfl
      · next hdata =>
          have hvalid : message.1.isValidConfig = true := by
            simpa [hdata] using htaken
          rw [if_pos hvalid, if_pos hvalid]

section

variable [DecidableEq N]

theorem Follows.step {reader : Reader} (hfollows : session.Follows reader)
    (h : session.step variant action = some after)
    {result : Except ErrorCode ValidMessage} (hreads : action.reads = some result) :
    session.decision after = (reader.next variant result).1 ∧
      after.Follows (reader.next variant result).2 := by
  obtain ⟨hrunning, hact⟩ := Option.ite_none_right_eq_some.mp h
  cases action with
  | firstMessage first =>
      cases hreads
      obtain ⟨hphase, heq⟩ := Option.ite_none_right_eq_some.mp hact
      cases heq
      exact hfollows.firstMessage hrunning hphase _
  | userMessage received =>
      cases hreads
      obtain ⟨hphase, hmap⟩ := Option.ite_none_right_eq_some.mp hact
      obtain ⟨config, hconfig, rfl⟩ := Option.map_eq_some_iff.mp hmap
      exact hfollows.userMessage hrunning hphase hconfig _
  | _ => cases hreads

theorem ReadInv.step
    {notes : List (Except ErrorCode ValidMessage × Decision)}
    (hinv : ReadInv variant session notes)
    (h : session.step variant action = some after) :
    ReadInv variant after (notes ++ noteDecision session action after) := by
  obtain ⟨hrunning, htransition⟩ := transition_of_step h
  have hinputs := htransition.accepted_inputs hrunning
  rw [hinv.inputs, inputsOf, inputsOf, ← List.filterMap_append] at hinputs
  cases hreads : action.reads with
  | none =>
      have hnone : noteDecision session action after = [] := by
        simp [noteDecision, hreads]
      rw [hnone, List.append_nil] at hinputs ⊢
      exact ⟨hinv.mainWaits.transition htransition,
        hinv.follows.transition hinv.mainWaits hrunning htransition hreads,
        hinv.decisions, hinputs⟩
  | some result =>
      obtain ⟨hdecision, hfollows⟩ := hinv.follows.step h hreads
      have hnote : noteDecision session action after =
          [(result, session.decision after)] := by
        simp [noteDecision, hreads]
      rw [hnote] at hinputs ⊢
      refine ⟨hinv.mainWaits.transition htransition, ?_, ?_, hinputs⟩
      · rw [List.map_append, Reader.after_append]
        exact hfollows
      · rw [List.map_append, List.map_append, Reader.decisions_append,
          ← hinv.decisions]
        simp only [List.map_cons, List.map_nil, hdecision, Reader.decisions]

theorem readInv_of_records {nodes : List N} {config data receiver : Counter}
    {notes : List (Except ErrorCode ValidMessage × Decision)}
    (h : Machine.Records (step variant) noteDecision (fun _ _ => True)
      (initial nodes config data receiver) session notes) :
    ReadInv variant session notes := by
  apply h.invariant ReadInv.initial
  intro before action after notes _ hinv _ hstep
  exact hinv.step hstep

/-- The session reads nothing more from its user's connection. -/
def NoMore (variant : Variant) (session : Session N) : Prop :=
  ∀ action after, session.step variant action = some after →
    action.reads = none

theorem ReadInv.noMore
    {notes : List (Except ErrorCode ValidMessage × Decision)}
    (hinv : ReadInv variant session notes) {decision : Decision}
    (hmem : decision ∈ notes.map Prod.snd) (hlast : decision.last = true) :
    NoMore variant session := by
  have hfollows := hinv.follows
  rw [hinv.decisions] at hmem
  rw [Reader.closed_of_last .awaiting _ hmem hlast] at hfollows
  intro action after hstep
  have hrunning := (transition_of_step hstep).1
  by_contra hreads
  have hphase : session.phase = .awaitingConfig ∨
      session.phase.firstConfig = true := by
    obtain ⟨_, hact⟩ := Option.ite_none_right_eq_some.mp hstep
    cases action with
    | firstMessage result =>
        exact Or.inl (Option.ite_none_right_eq_some.mp hact).1
    | userMessage result =>
        have hphase := (Option.ite_none_right_eq_some.mp hact).1
        exact Or.inr (by simp [hphase, Phase.firstConfig])
    | _ => exact absurd rfl hreads
  rcases hphase with hphase | hphase
  · exact Reader.noConfusion (hfollows.awaiting hrunning.1 hphase)
  · obtain ⟨config, _, hclosed⟩ := hfollows.serving hrunning.1 hphase
    exact Reader.noConfusion hclosed

/-- In one state, the variants do the same to everything but the order in which
nodes are ready, if the main loop takes what it receives. -/
theorem alike_of_takes (session : Session N) (action : Action N)
    (htaken : ∀ result ∈ action.fromUser, session.drops result = false) :
    Option.Rel Alike (session.step .queue action) (session.step .stack action) := by
  unfold step
  split
  · cases action with
    | firstMessage result =>
        simp only [act]
        split
        · cases result with
          | error ec => exact Alike.rel_refl _
          | ok message =>
              simp only [firstMessage]
              split
              · exact Option.Rel.some (alike_configureNodes session message)
              · exact Alike.rel_refl _
        · exact Option.Rel.none
    | configHandler task =>
        simp only [act]
        split
        · split
          · exact Option.Rel.some (alike_configHandler session _ _ _)
          · exact Option.Rel.none
        · exact Option.Rel.none
    | respSent =>
        simp only [act]
        split
        · split
          · exact Option.Rel.some (alike_startLoops _)
          · exact Option.Rel.none
        · exact Option.Rel.none
    | userMessage result =>
        have htaken := htaken result rfl
        simp only [act]
        split
        · cases hconfig : session.config with
          | none => exact Option.Rel.none
          | some config =>
              simp only [Option.map_some,
                alike_userMessage session config hconfig result htaken]
              exact Alike.rel_refl _
        · exact Option.Rel.none
    | inputSent task =>
        simp only [act]
        split
        · have hpool := (AsyncPool.Reordered.refl session.pool).push .queue .stack
            task.node
          exact Option.Rel.some
            ⟨_, _, _, hpool, List.Perm.refl _, List.Perm.refl _, rfl⟩
        · exact Option.Rel.none
    | _ => exact Alike.rel_refl _
  · exact Option.Rel.none

/-- Two runs that have read the same messages have made the same of them. -/
structure Agree (queue : Session N)
    (queueNotes : List (Except ErrorCode ValidMessage × Decision))
    (stack : Session N)
    (stackNotes : List (Except ErrorCode ValidMessage × Decision)) : Prop where
  decisions : queueNotes.map Prod.snd = stackNotes.map Prod.snd
  inputs : queue.accepted.map (fun input => input.message) =
    stack.accepted.map (fun input => input.message)
  ends : ∀ decision ∈ queueNotes.map Prod.snd ++ stackNotes.map Prod.snd,
    decision.last = true → NoMore .queue queue ∧ NoMore .stack stack

/-- A queue session and a stack session that have read the same messages agree
exactly if these were clean, whatever their nodes did; and in one state the two
differ only in the order of ready nodes. -/
theorem agree_iff_clean (queueNodes stackNodes : List N)
    (queueConfig queueData queueReceiver : Counter)
    (stackConfig stackData stackReceiver : Counter)
    {queue stack : Session N}
    {queueNotes stackNotes : List (Except ErrorCode ValidMessage × Decision)}
    (hqueue : Machine.Records (step .queue) noteDecision (fun _ _ => True)
      (initial queueNodes queueConfig queueData queueReceiver) queue queueNotes)
    (hstack : Machine.Records (step .stack) noteDecision (fun _ _ => True)
      (initial stackNodes stackConfig stackData stackReceiver) stack stackNotes)
    (hsame : queueNotes.map Prod.fst = stackNotes.map Prod.fst) :
    (Agree queue queueNotes stack stackNotes ↔
      Reader.clean .awaiting (queueNotes.map Prod.fst) = true) ∧
    ∀ (session : Session N) (action : Action N),
      (∀ result ∈ action.fromUser, session.drops result = false) →
        Option.Rel Alike (session.step .queue action)
          (session.step .stack action) := by
  have hleft := readInv_of_records hqueue
  have hright := readInv_of_records hstack
  have hdecisions : queueNotes.map Prod.snd = stackNotes.map Prod.snd ↔
      Reader.clean .awaiting (queueNotes.map Prod.fst) = true := by
    rw [hleft.decisions, hright.decisions, ← hsame]
    exact Reader.decisions_eq_iff_clean _ _
  refine ⟨⟨fun hagree => hdecisions.mp hagree.decisions, fun hclean => ?_⟩,
    alike_of_takes⟩
  have hequal := hdecisions.mpr hclean
  have hnotes : queueNotes = stackNotes := by
    rw [← List.zip_unzip queueNotes, ← List.zip_unzip stackNotes,
      List.unzip_fst, List.unzip_snd, List.unzip_fst, List.unzip_snd, hsame,
      hequal]
  refine ⟨hequal, ?_, ?_⟩
  · rw [hleft.inputs, hright.inputs, hnotes]
  · intro decision hmem hlast
    rw [← hequal, List.mem_append, or_self] at hmem
    exact ⟨hleft.noMore hmem hlast, hright.noMore (hequal ▸ hmem) hlast⟩

/-- Two inputs, the second when the first has been sent: the variants give it to
different nodes, and agree. -/
theorem agree_iff_clean_inputs :
    ∃ queue stack : Session Nat,
      queue.sendTasks.map (·.node) = [1] ∧ stack.sendTasks.map (·.node) = [0] ∧
        (Agree queue [(.ok (.config 1 1), .configure),
            (.ok (.data 5), .dispatch), (.ok (.data 6), .dispatch)]
          stack [(.ok (.config 1 1), .configure),
            (.ok (.data 5), .dispatch), (.ok (.data 6), .dispatch)] ↔
          Reader.clean .awaiting
            [.ok (.config 1 1), .ok (.data 5), .ok (.data 6)] = true) := by
  let actions : List (Action Nat) := configuration (.config 1 1) [0, 1] ++
    [.userMessage (.ok (.data 5)), .inputPiece ⟨0, firstInput, 0⟩ 13,
      .inputSent ⟨0, firstInput, 13⟩, .userMessage (.ok (.data 6))]
  refine ⟨_, _, ?_, ?_, (agree_iff_clean [0, 1] [0, 1] ⟨0⟩ ⟨0⟩ ⟨0⟩ ⟨0⟩ ⟨0⟩ ⟨0⟩
    (Machine.records_of_run actions rfl) (Machine.records_of_run actions rfl)
    rfl).1⟩
  · decide
  · decide

/-- A response from the user, which is neither an input nor a configuration:
the queue session ends, and the stack session goes on to the next message. -/
theorem variants_not_agree :
    ∃ (queue stack : Session Nat)
      (queueNotes stackNotes : List (Except ErrorCode ValidMessage × Decision)),
      Machine.Records (step .queue) noteDecision (fun _ _ => True)
        (initial [0] ⟨0⟩ ⟨0⟩ ⟨0⟩) queue queueNotes ∧
      Machine.Records (step .stack) noteDecision (fun _ _ => True)
        (initial [0] ⟨0⟩ ⟨0⟩ ⟨0⟩) stack stackNotes ∧
      queueNotes.map Prod.fst = stackNotes.map Prod.fst ∧
      queueNotes.map Prod.snd = [.configure, .ends] ∧
      stackNotes.map Prod.snd = [.configure, .ignores] ∧
      ¬Agree queue queueNotes stack stackNotes := by
  let actions : List (Action Nat) := configuration (.config 1 1) [0] ++
    [.userMessage (.ok (.newConfigResp (fun _ => 0) .success))]
  refine ⟨_, _, _, _, Machine.records_of_run actions rfl,
    Machine.records_of_run actions rfl, rfl, rfl, rfl, fun hagree => ?_⟩
  exact absurd hagree.decisions (by decide)

end

end Session

end FpgaFramework
