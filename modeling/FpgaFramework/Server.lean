/-
The server.  One coroutine collects the nodes that connect; the other one waits for
a user, starts a session on the nodes that are there by then, and ends the server
with that session.
-/
import FpgaFramework.SessionNodes

namespace FpgaFramework

open scoped List

/-- Where `run` is: nobody has come yet, `start` runs, `_start_user_server` has
returned, or the other accept loop has been cancelled too. -/
inductive Server.Phase where
  | accepting
  | serving
  | returned
  | over
deriving Repr, DecidableEq

structure Server (N : Type) where
  phase : Server.Phase
  /-- `_nodes`. -/
  nodes : List N
  /-- The session of the user that was accepted. -/
  session : Option (Session N)
  /-- History: the node connections that were accepted, and `nodes_tmp`. -/
  connected : List N
  handed : List N
deriving DecidableEq

namespace Server

variable {N : Type}

def initial : Server N where
  phase := .accepting
  nodes := []
  session := none
  connected := []
  handed := []

/-- What can happen next.  A new `User` finds its counters as their memory was. -/
inductive Action (N : Type) where
  | acceptNode (result : Except ErrorCode N)
  | acceptUser (result : Except ErrorCode Unit) (config data receiver : Counter)
  | session (action : Session.Action N)
  | sessionReturned
  | nodesCancelled

/-- `_start_node_server` on the outcome of an accept: every connection is a new
one, and an error is only reported. -/
def acceptNode [DecidableEq N] (server : Server N) :
    Except ErrorCode N → Option (Server N)
  | .error _ => some server
  | .ok node =>
      if node ∈ server.connected then none
      else some { server with
        nodes := server.nodes ++ [node]
        connected := server.connected ++ [node] }

/-- `_start_user_server` on the outcome of an accept. -/
def acceptUser (server : Server N) (config data receiver : Counter) :
    Except ErrorCode Unit → Server N
  | .error _ => server
  | .ok _ =>
      { server with
        phase := .serving
        nodes := []
        session := some (Session.initial server.nodes config data receiver)
        handed := server.nodes }

variable [DecidableEq N]

def step (variant : Variant) (server : Server N) : Action N → Option (Server N)
  | .acceptNode result =>
      if server.phase = .over then none else server.acceptNode result
  | .acceptUser result config data receiver =>
      if server.phase = .accepting then
        some (server.acceptUser config data receiver result)
      else none
  | .session action =>
      if server.phase = .serving then
        (server.session.bind fun session => session.step variant action).map
          fun session => { server with session := some session }
      else none
  | .sessionReturned =>
      if server.phase = .serving ∧
          server.session.map Session.phase = some .returned then
        some { server with phase := .returned }
      else none
  -- `||` cancels the loop that is still accepting.
  | .nodesCancelled =>
      if server.phase = .returned then some { server with phase := .over } else none

/-- What one step can do. -/
inductive Transition (variant : Variant) (server : Server N) :
    Action N → Server N → Prop
  | acceptError {ec : ErrorCode} :
      Transition variant server (.acceptNode (.error ec)) server
  | nodeAccepted {node : N} (hnew : node ∉ server.connected) :
      Transition variant server (.acceptNode (.ok node))
        { server with
          nodes := server.nodes ++ [node]
          connected := server.connected ++ [node] }
  | userError {ec : ErrorCode} {config data receiver : Counter} :
      Transition variant server (.acceptUser (.error ec) config data receiver) server
  | userAccepted {config data receiver : Counter}
      (hphase : server.phase = .accepting) :
      Transition variant server (.acceptUser (.ok ()) config data receiver)
        { server with
          phase := .serving
          nodes := []
          session := some (Session.initial server.nodes config data receiver)
          handed := server.nodes }
  | session {action : Session.Action N} {session next : Session N}
      (hsession : server.session = some session)
      (hstep : session.step variant action = some next) :
      Transition variant server (.session action)
        { server with session := some next }
  | moved {action : Action N} {phase : Phase} (hphase : phase ≠ .accepting) :
      Transition variant server action { server with phase := phase }

variable {variant : Variant} {server after : Server N} {action : Action N}

theorem transition_of_step (h : server.step variant action = some after) :
    Transition variant server action after := by
  cases action with
  | acceptNode result =>
      obtain ⟨_, haccept⟩ := Option.ite_none_left_eq_some.mp h
      cases result with
      | error ec =>
          cases haccept
          exact Transition.acceptError
      | ok node =>
          obtain ⟨hnew, hsome⟩ := Option.ite_none_left_eq_some.mp haccept
          cases hsome
          exact Transition.nodeAccepted hnew
  | acceptUser result config data receiver =>
      obtain ⟨hphase, hsome⟩ := Option.ite_none_right_eq_some.mp h
      cases hsome
      cases result with
      | error ec => exact Transition.userError
      | ok => exact Transition.userAccepted hphase
  | session action =>
      obtain ⟨_, hsome⟩ := Option.ite_none_right_eq_some.mp h
      obtain ⟨next, hnext, rfl⟩ := Option.map_eq_some_iff.mp hsome
      obtain ⟨session, hsession, hstep⟩ := Option.bind_eq_some_iff.mp hnext
      exact Transition.session hsession hstep
  | sessionReturned | nodesCancelled =>
      obtain ⟨_, hsome⟩ := Option.ite_none_right_eq_some.mp h
      cases hsome
      exact Transition.moved (fun h => by cases h)

/-- The accepted nodes are those that the session was given and, behind them, those
that have come since. -/
structure Inv (variant : Variant) (server : Server N) : Prop where
  inOrder : server.connected = server.handed ++ server.nodes
  nodup : server.connected.Nodup
  accepting : server.phase = .accepting → server.session = none
  noSession : server.session = none → server.handed = []
  reached : ∀ session ∈ server.session, ∃ config data receiver,
    Machine.Reachable (Session.step variant)
      (Session.initial server.handed config data receiver) session

theorem Inv.initial : Inv variant (initial : Server N) :=
  ⟨rfl, List.nodup_nil, fun _ => rfl, fun _ => rfl, fun session hsome => by cases hsome⟩

theorem Inv.transition (hinv : server.Inv variant)
    (h : Transition variant server action after) : after.Inv variant := by
  obtain ⟨horder, hnodup, haccepting, hnone, hreached⟩ := hinv
  cases h with
  | acceptError | userError => exact ⟨horder, hnodup, haccepting, hnone, hreached⟩
  | @nodeAccepted node hnew =>
      constructor
      · simp only [horder, List.append_assoc]
      · change (server.connected ++ [node]).Nodup
        rw [← List.concat_eq_append]
        exact hnodup.concat hnew
      · exact haccepting
      · exact hnone
      · exact hreached
  | @userAccepted config data receiver hphase =>
      constructor
      · simp only [horder, hnone (haccepting hphase), List.nil_append, List.append_nil]
      · exact hnodup
      · intro hother
        cases hother
      · intro hsome
        cases hsome
      · intro session hsession
        cases hsession
        exact ⟨config, data, receiver, Machine.Reaches.refl⟩
  | @session action session next hsession hstep =>
      constructor
      · exact horder
      · exact hnodup
      · intro hphase
        rw [haccepting hphase] at hsession
        cases hsession
      · intro hsome
        cases hsome
      · intro other hother
        cases hother
        obtain ⟨config, data, receiver, hreach⟩ := hreached session hsession
        exact ⟨config, data, receiver, hreach.tail True.intro hstep⟩
  | moved hphase =>
      exact ⟨horder, hnodup, fun hother => absurd hother hphase, hnone, hreached⟩

theorem inv_of_reachable (h : Machine.Reachable (step variant) initial server) :
    server.Inv variant := by
  apply h.invariant Inv.initial
  intro before action after hinv _ hstep
  exact hinv.transition (transition_of_step hstep)

/-- The nodes in the server's vector and in all places of the session. -/
def places (server : Server N) : List N :=
  server.nodes ++ (server.session.map Session.places).getD []

theorem session_places_perm {nodes : List N} {config data receiver : Counter}
    {session : Session N}
    (h : Machine.Reachable (Session.step variant)
      (Session.initial nodes config data receiver) session) :
    session.places ~ nodes := by
  induction h with
  | refl => simp [Session.places, Session.initial, AsyncPool.empty]
  | tail _ _ hstep ih => exact (Session.transition_of_step hstep).2.places_perm.trans ih

/-- Receiver loops run on nodes that have a place. -/
theorem node_mem_places_of_loop {nodes : List N} {config data receiver : Counter}
    {session : Session N}
    (h : Machine.Reachable (Session.step variant)
      (Session.initial nodes config data receiver) session) :
    ∀ loop ∈ session.loops, loop.node ∈ session.places := by
  induction h with
  | refl =>
      intro loop hmem
      cases hmem
  | @tail before after action hreach _ hstep ih =>
      have htransition := (Session.transition_of_step hstep).2
      have hsame : ∀ node, node ∈ after.places ↔ node ∈ before.places := fun node =>
        htransition.places_perm.mem_iff
      simp only [hsame]
      cases htransition with
      | respSent =>
          intro loop hmem
          rcases List.mem_append.mp hmem with hnew | hold
          · obtain ⟨node, hnode, rfl⟩ := List.mem_map.mp hnew
            simp only [AsyncPool.popAll] at hnode
            simp [Session.places, hnode]
          · exact ih loop hold
      | drained =>
          intro loop hmem
          obtain ⟨old, hold, rfl⟩ := List.mem_map.mp hmem
          rw [Session.node_notify]
          exact ih old hold
      | nodeError hperm | nodeUnasked hperm | nodeAnswer hperm | examineError hperm
      | examineInvalid hperm | examineValid hperm | forwardError hperm
      | forwardDone hperm | loopStopped hperm =>
          exact Session.forall_moved ih hperm id
      | loopHandler hperm => exact Session.forall_rest ih hperm
      | _ => exact ih

/-- A session's coroutines use its own nodes only. -/
theorem used_subset {nodes : List N} {config data receiver : Counter}
    {session : Session N}
    (h : Machine.Reachable (Session.step variant)
      (Session.initial nodes config data receiver) session) :
    session.writers ++ session.readers ⊆ nodes := by
  intro node hmem
  rw [← (session_places_perm h).mem_iff]
  rcases List.mem_append.mp hmem with hwriter | hreader
  · rcases List.mem_append.mp hwriter with hconfig | hsend
    · simp only [Session.places, List.mem_append, hconfig, or_true, true_or]
    · simp only [Session.places, List.mem_append, hsend, or_true, true_or]
  · rcases List.mem_append.mp hreader with hconfig | hloop
    · simp only [Session.places, List.mem_append, hconfig, or_true, true_or]
    · obtain ⟨loop, hin, rfl⟩ := List.mem_map.mp hloop
      exact node_mem_places_of_loop h loop hin

/-- Once a user has come, the vector only grows, and what was handed over stays. -/
theorem nodes_of_reachable {later : Server N} (hphase : server.phase ≠ .accepting)
    (h : Machine.Reachable (step variant) server later) :
    later.phase ≠ .accepting ∧ later.handed = server.handed ∧
      server.nodes <+: later.nodes := by
  induction h with
  | refl => exact ⟨hphase, rfl, List.prefix_refl _⟩
  | tail _ _ hstep ih =>
      obtain ⟨hlate, hhanded, hprefix⟩ := ih
      cases transition_of_step hstep with
      | acceptError | userError | session => exact ⟨hlate, hhanded, hprefix⟩
      | nodeAccepted =>
          exact ⟨hlate, hhanded, hprefix.trans (List.prefix_append _ _)⟩
      | userAccepted haccepting => exact absurd haccepting hlate
      | moved hmoved => exact ⟨hmoved, hhanded, hprefix⟩

/-- What nodes and users can rely on. -/
structure OneSession (variant : Variant) (server : Server N) : Prop where
  inOrder : server.connected = server.handed ++ server.nodes
  onePlace : server.places ~ server.connected
  nodup : server.connected.Nodup
  session : ∀ session ∈ server.session, ∃ config data receiver,
    Machine.Reachable (Session.step variant)
      (Session.initial server.handed config data receiver) session
  lateUnused : ∀ session ∈ server.session, ∀ node ∈ server.nodes,
    node ∉ session.writers ++ session.readers
  lateForGood : server.session ≠ none → ∀ later,
    Machine.Reachable (step variant) server later →
      later.handed = server.handed ∧ server.nodes <+: later.nodes

/-- The server runs one session, on the nodes that came before its user in the order
in which they came; every node is in one place, and nobody uses a later one. -/
theorem oneSession_of_reachable (variant : Variant)
    (h : Machine.Reachable (step variant) initial server) :
    server.OneSession variant := by
  have hinv := inv_of_reachable h
  have hplaces : server.places ~ server.connected := by
    rw [hinv.inOrder, places]
    refine List.perm_append_comm.trans (List.Perm.append_right _ ?_)
    cases hsession : server.session with
    | none =>
        rw [hinv.noSession hsession]
        rfl
    | some session =>
        obtain ⟨config, data, receiver, hreach⟩ := hinv.reached session hsession
        exact session_places_perm hreach
  refine ⟨hinv.inOrder, hplaces, hinv.nodup, hinv.reached, ?_, ?_⟩
  · intro session hsession node hmem hused
    obtain ⟨config, data, receiver, hreach⟩ := hinv.reached session hsession
    have hnodup := hinv.nodup
    rw [hinv.inOrder] at hnodup
    exact (List.disjoint_of_nodup_append hnodup) (used_subset hreach hused) hmem
  · intro hsome later hlater
    have hphase : server.phase ≠ .accepting := fun hphase =>
      hsome (hinv.accepting hphase)
    exact (nodes_of_reachable hphase hlater).2

/-- Two nodes come before the user, and two after. -/
def lateNode : List (Action Nat) :=
  [.acceptNode (.ok 4), .acceptNode (.error (.other 1)), .acceptNode (.ok 5),
    .acceptUser (.ok ()) ⟨7⟩ ⟨0⟩ ⟨0⟩, .acceptNode (.ok 6),
    .session (.firstMessage (.ok (.config 1 1))), .acceptNode (.ok 7)]

theorem oneSession_of_reachable_lateNode :
    ∃ server : Server Nat,
      Machine.run (step .queue) (fun _ _ => True) initial lateNode = some server ∧
      server.handed = [4, 5] ∧ server.nodes = [6, 7] ∧ server.OneSession .queue :=
  ⟨_, rfl, rfl, rfl,
    oneSession_of_reachable .queue (Machine.reaches_of_run lateNode rfl)⟩

end Server

end FpgaFramework
