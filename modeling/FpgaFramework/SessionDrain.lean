/-
The wait for the accepted inputs.  If a node sends a valid result only for an
input that it holds, the data counter says how many accepted inputs have not had
their result sent to the user, and the wait ends when all have.
-/
import FpgaFramework.SessionTeardown

namespace FpgaFramework

open scoped List

namespace Session

variable {N : Type} {variant : Variant} {session after : Session N}
  {action : Action N}

/-- The loop that examines what it received with this step. -/
def Action.examines : Action N → Option (Loop N)
  | .examine loop => some loop
  | _ => none

/-- The message that the loop has received is a valid result. -/
def passes (session : Session N) (loop : Loop N) : Bool :=
  match loop.stage, session.config with
  | .received (.ok held) _, some config =>
      held.message.1.isValidData config.message.1.outputSize == some true
  | _, _ => false

/-- A valid result answers an input that was written to its node and that no
earlier result answers; and fewer than `2 ^ 32` inputs are outstanding. -/
structure WellBehaved (session : Session N) (action : Action N) : Prop where
  validAnswers : ∀ loop ∈ action.examines,
    session.passes loop = true → Loop.answering loop ≠ []
  fewOutstanding : ∀ result ∈ action.fromUser, session.accepts result = true →
    session.accepted.length + 1 < 2 ^ 32 + session.completed.length

instance [DecidableEq N] (session : Session N) (action : Action N) :
    Decidable (session.WellBehaved action) :=
  decidable_of_iff
    ((∀ loop ∈ action.examines,
        session.passes loop = true → Loop.answering loop ≠ []) ∧
      ∀ result ∈ action.fromUser, session.accepts result = true →
        session.accepted.length + 1 < 2 ^ 32 + session.completed.length)
    ⟨fun h => ⟨h.1, h.2⟩, fun h => ⟨h.validAnswers, h.fewOutstanding⟩⟩

/-- The result that has been sent to the user with the step, and the input that
it answers. -/
def Action.sent : Action N → List (Input × N × Held)
  | .forwardDone loop =>
      match loop.stage with
      | .forwarding held _ (some input) => [(input, loop.node, held)]
      | _ => []
  | _ => []

def noteSent (_before : Session N) (action : Action N) (_after : Session N) :
    List (Input × N × Held) :=
  action.sent

/-- A loop that is forwarding a result answers an input with it. -/
def ForwardsAnswers (session : Session N) : Prop :=
  ∀ loop ∈ session.loops, ∀ held ticket answers,
    loop.stage = .forwarding held ticket answers → answers ≠ none

theorem ForwardsAnswers.transition (hinv : session.ForwardsAnswers)
    (hguard : session.WellBehaved action)
    (h : Transition variant session action after) : after.ForwardsAnswers := by
  cases h with
  | respSent =>
      intro loop hmem
      rcases List.mem_append.mp hmem with hnew | hold
      · obtain ⟨node, _, rfl⟩ := List.mem_map.mp hnew
        intro held ticket answers hstage
        cases hstage
      · exact hinv loop hold
  | drained =>
      intro loop hmem held ticket answers hstage
      obtain ⟨old, hold, rfl⟩ := List.mem_map.mp hmem
      unfold notify at hstage
      split at hstage
      · cases hstage
      · exact hinv old hold held ticket answers hstage
  | nodeError hperm | nodeUnasked hperm | nodeAnswer hperm | examineError hperm
  | examineInvalid hperm | forwardError hperm | forwardDone hperm
  | loopStopped hperm =>
      refine forall_moved hinv hperm ?_
      intro _ held ticket answers hstage
      cases hstage
  | @examineValid loop rest held answers config hperm hstage hconfig hdata =>
      have hpasses : session.passes loop = true := by
        simp [passes, hstage, hconfig, hdata]
      have hanswers := hguard.validAnswers loop rfl hpasses
      refine forall_moved hinv hperm ?_
      intro _ held ticket answers hforwarding
      cases hforwarding
      rintro rfl
      exact hanswers (by simp [Loop.answering, hstage])
  | loopHandler hperm => exact forall_rest hinv hperm
  | _ => exact hinv

/-- The inputs that nodes hold or have answered. -/
def handed (session : Session N) : List Input :=
  session.atNodes.map Prod.snd ++ session.answered

/-- An input that is written to a node is held there, answered, and sent to the
user, in this order, or it is dropped. -/
theorem Transition.count_handed (h : Transition variant session action after)
    (input : Input) :
    after.handed.count input + (action.sent.map Prod.fst).count input +
        (session.delivered.map Prod.snd).count input ≤
      session.handed.count input +
        (after.delivered.map Prod.snd).count input := by
  have hnone : action.sent = [] → (action.sent.map Prod.fst).count input = 0 := by
    intro hsent
    rw [hsent, List.map_nil, List.count_nil]
  simp only [handed, List.count_append]
  cases h with
  | respSent =>
      simp only [answered, startLoops, List.flatMap_append, answering_waiting,
        List.nil_append, hnone rfl]
      omega
  | drained =>
      simp only [answered, answering_map_notify, hnone rfl]
      omega
  | inputWhole =>
      simp only [answered, List.map_cons, List.count_cons, hnone rfl]
      omega
  | nodeError hperm hstage | nodeUnasked hperm hstage
  | examineError hperm hstage | examineInvalid hperm hstage
  | forwardError hperm hstage | loopStopped hperm hstage =>
      have hcount := count_flatMap_of_perm hperm Loop.answering input
      simp only [answered, List.flatMap_cons, Loop.answering, Option.toList_none,
        List.nil_append, hcount, hnone rfl]
      omega
  | nodeAnswer hperm hstage _ hat =>
      have hcount := count_flatMap_of_perm hperm Loop.answering input
      have hheld := (hat.map Prod.snd).count_eq input
      simp only [List.map_cons, List.count_cons] at hheld
      simp only [answered, List.flatMap_cons, Loop.answering, Option.toList_some,
        List.count_append, List.count_cons, List.count_nil, hcount, hheld,
        hnone rfl]
      omega
  | examineValid hperm hstage =>
      have hcount := count_flatMap_of_perm hperm Loop.answering input
      simp only [Loop.answering, hstage] at hcount
      simp only [answered, List.flatMap_cons, Loop.answering, List.count_append,
        hcount, hnone rfl]
      omega
  | @forwardDone loop rest held ticket answers hperm hstage =>
      have hcount := count_flatMap_of_perm hperm Loop.answering input
      have hsent : ((Action.forwardDone loop).sent.map Prod.fst) =
          answers.toList := by
        simp only [Action.sent, hstage]
        cases answers <;> rfl
      simp only [Loop.answering, hstage] at hcount
      simp only [answered, List.flatMap_cons, Loop.answering, List.nil_append,
        hsent, hcount]
      omega
  | loopHandler hperm hstage =>
      have hcount := count_flatMap_of_perm hperm Loop.answering input
      simp only [Loop.answering, hstage, List.count_nil, Nat.zero_add] at hcount
      simp only [answered, hcount, hnone rfl]
      omega
  | _ => exact Nat.le_refl _

/-- How the data counter moves with what was accepted and what was completed. -/
theorem Transition.counted (h : Transition variant session action after) :
    after.accepted = session.accepted ∧ after.completed = session.completed ∧
        after.dataCounter = session.dataCounter ∧ action.sent = [] ∨
      (∃ message input, action = .userMessage (.ok message) ∧
        session.accepts (.ok message) = true ∧
          after.accepted = session.accepted ++ [input] ∧
            after.completed = session.completed ∧
              after.dataCounter = session.dataCounter.incr) ∨
      ∃ loop held ticket answers, action = .forwardDone loop ∧
        loop ∈ session.loops ∧ loop.stage = .forwarding held ticket answers ∧
          after.accepted = session.accepted ∧
            after.completed = session.completed ++ [(loop.node, held)] ∧
              after.dataCounter = session.dataCounter.decr := by
  cases h with
  | userInput _ hconfig hdata =>
      exact Or.inr (Or.inl ⟨_, _, rfl, by simp [accepts, hconfig, hdata], rfl,
        rfl, rfl⟩)
  | forwardDone hperm hstage =>
      exact Or.inr (Or.inr ⟨_, _, _, _, rfl,
        mem_of_perm hperm, hstage, rfl, rfl, rfl⟩)
  | _ => exact Or.inl ⟨rfl, rfl, rfl, rfl⟩

/-- What holds of every run with well-behaved nodes and the results that it has
sent. -/
structure DrainInv (session : Session N) (sent : List (Input × N × Held)) :
    Prop where
  message : session.MessageInv
  forwards : session.ForwardsAnswers
  handed : ∀ input, session.handed.count input +
    (sent.map Prod.fst).count input ≤
      (session.delivered.map Prod.snd).count input
  completed : sent.map Prod.snd = session.completed
  counted : session.dataCounter.getValue + session.completed.length =
    session.accepted.length

theorem DrainInv.initial {nodes : List N} {config data receiver : Counter}
    (hdata : data.getValue = 0) :
    DrainInv (initial nodes config data receiver) [] where
  message := MessageInv.initial
  forwards := nofun
  handed _ := Nat.le_refl 0
  completed := rfl
  counted := hdata

/-- Every result that was sent, and every one in the loops' hands, answers an
accepted input of its own. -/
theorem DrainInv.subperm {sent : List (Input × N × Held)}
    (hinv : DrainInv session sent) :
    sent.map Prod.fst ++ session.answered <+~ session.accepted := by
  rw [List.subperm_iff_count]
  intro input
  have hhanded := hinv.handed input
  have hinputs := hinv.message.inputs input
  simp only [Session.handed, List.count_append] at hhanded
  rw [List.count_append]
  omega

/-- A loop that finishes its forwarding finds the counter above zero. -/
theorem DrainInv.pos {sent : List (Input × N × Held)}
    (hinv : DrainInv session sent) {loop : Loop N} (hmem : loop ∈ session.loops)
    {held : Held} {ticket : Nat} {answers : Option Input}
    (hstage : loop.stage = .forwarding held ticket answers) :
    0 < session.dataCounter.getValue := by
  have hlength := hinv.subperm.length_le
  have hcounted := hinv.counted
  have hanswered : 0 < session.answered.length := by
    obtain ⟨input, rfl⟩ := Option.ne_none_iff_exists'.mp
      (hinv.forwards loop hmem held ticket answers hstage)
    apply List.length_pos_of_mem (a := input)
    exact List.mem_flatMap.mpr ⟨loop, hmem, by simp [Loop.answering, hstage]⟩
  rw [← hinv.completed] at hcounted
  simp only [List.length_append, List.length_map] at hlength hcounted
  omega

theorem DrainInv.transition {sent : List (Input × N × Held)}
    (hinv : DrainInv session sent) (hguard : session.WellBehaved action)
    (h : Transition variant session action after) :
    DrainInv after (sent ++ action.sent) where
  message := hinv.message.transition h
  forwards := hinv.forwards.transition hguard h
  handed input := by
    have hbefore := hinv.handed input
    have hmove := h.count_handed input
    rw [List.map_append, List.count_append]
    omega
  completed := by
    rw [List.map_append, hinv.completed]
    rcases h.counted with ⟨_, hsame, _, hnone⟩ |
      ⟨message, _, rfl, _, _, hsame, _⟩ |
      ⟨loop, held, ticket, answers, rfl, hmem, hstage, _, hmore, _⟩
    · rw [hsame, hnone, List.map_nil, List.append_nil]
    · rw [hsame]
      exact List.append_nil _
    · obtain ⟨input, rfl⟩ := Option.ne_none_iff_exists'.mp
        (hinv.forwards loop hmem held ticket answers hstage)
      simp only [hmore, Action.sent, hstage, List.map_cons, List.map_nil]
  counted := by
    have hcounted := hinv.counted
    rcases h.counted with ⟨haccepted, hsame, hdata, _⟩ |
      ⟨message, _, rfl, haccepts, haccepted, hsame, hdata⟩ |
      ⟨loop, held, ticket, answers, rfl, hmem, hstage, haccepted, hmore, hdata⟩
    · rw [haccepted, hsame, hdata]
      exact hcounted
    · have hfew := hguard.fewOutstanding _ rfl haccepts
      rw [haccepted, hsame, hdata, Counter.getValue_incr,
        Nat.mod_eq_of_lt (by omega), List.length_append, List.length_singleton]
      omega
    · have hpos := hinv.pos hmem hstage
      rw [haccepted, hmore, hdata, Counter.getValue_decr, List.length_append,
        List.length_singleton]
      omega

/-- The data counter as the new-configuration path relies on it. -/
structure Drains (variant : Variant) (session : Session N)
    (sent : List (Input × N × Held)) [DecidableEq N] : Prop where
  completed : sent.map Prod.snd = session.completed
  counted : session.dataCounter.getValue =
    session.accepted.length - session.completed.length
  enough : session.completed.length ≤ session.accepted.length
  pos : ∀ loop after, session.step variant (.forwardDone loop) = some after →
    session.dataCounter.val ≠ 0
  allSent : ∀ after, session.step variant .drained = some after →
    ∀ input ∈ session.accepted, ∃ entry ∈ session.completed,
      (input, entry) ∈ sent

section

variable [DecidableEq N]

/-- With well-behaved nodes, the wait for the data counter ends only when every
accepted input has had its result sent to the user. -/
theorem drains_of_wellBehaved (variant : Variant) (nodes : List N)
    (config data receiver : Counter) (hdata : data.getValue = 0)
    {session : Session N} {sent : List (Input × N × Held)}
    (h : Machine.Records (step variant) noteSent WellBehaved
      (initial nodes config data receiver) session sent) :
    Drains variant session sent := by
  have hinv : DrainInv session sent := by
    apply h.invariant (DrainInv.initial hdata)
    intro before action after sent _ hinv hguard hstep
    exact hinv.transition hguard (transition_of_step hstep).2
  have hcounted := hinv.counted
  refine ⟨hinv.completed, by omega, by omega, ?_, ?_⟩
  · intro loop after hstep hzero
    cases (transition_of_step hstep).2 with
    | forwardDone hperm hstage =>
        have hpos := hinv.pos (mem_of_perm hperm) hstage
        rw [(Counter.val_eq_zero_iff _).mp hzero] at hpos
        exact Nat.lt_irrefl 0 hpos
  · intro after hstep input hmem
    cases (transition_of_step hstep).2 with
    | drained _ hzero =>
        rw [(Counter.val_eq_zero_iff _).mp hzero, ← hinv.completed,
          List.length_map] at hcounted
        have hperm : sent.map Prod.fst ++ session.answered ~ session.accepted := by
          apply hinv.subperm.perm_of_length_le
          rw [List.length_append, List.length_map]
          omega
        have hnone : session.answered = [] := by
          have hlength := hperm.length_eq
          rw [List.length_append, List.length_map] at hlength
          exact List.eq_nil_of_length_eq_zero (by omega)
        rw [hnone, List.append_nil] at hperm
        obtain ⟨entry, hentry, rfl⟩ := List.mem_map.mp (hperm.mem_iff.mpr hmem)
        refine ⟨entry.2, ?_, hentry⟩
        rw [← hinv.completed]
        exact List.mem_map_of_mem hentry

/-- The only input has had its result sent when a new configuration comes. -/
theorem drains_of_wellBehaved_reconfigured :
    ∃ (session : Session Nat) (sent : List (Input × Nat × Held)),
      Machine.run (Machine.recording (step .queue) noteSent)
        (fun entry => WellBehaved entry.1) (initial [0, 1] ⟨0⟩ ⟨0⟩ ⟨0⟩, [])
          reconfigured = some (session, sent) ∧
      sent = [(firstInput, 0, ⟨5, .data 7⟩)] ∧ Drains .queue session sent :=
  ⟨_, _, rfl, rfl,
    drains_of_wellBehaved .queue [0, 1] ⟨0⟩ ⟨0⟩ ⟨0⟩ rfl
      (Machine.records_of_run reconfigured rfl)⟩

end

end Session

end FpgaFramework
