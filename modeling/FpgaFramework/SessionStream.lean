/-
What the user's connection is sent.  Several coroutines write to it: the one
that sends the configuration response, and then one receiver loop for each node.
Seen from the connection a session is one shared stream.
-/
import FpgaFramework.SessionStep

namespace FpgaFramework

namespace Session

variable {N : Type} {variant : Variant} {session after : Session N}
  {action : Action N}

/-- The message to the user that the step writes a piece of. -/
def writes (session : Session N) : Action N → Option Nat
  | .respPiece _ => session.phase.ticket
  | .forwardPiece loop _ => loop.stage.ticket
  | _ => none

/-- Bytes go to the user only while no message other than the one they belong
to is partly out. -/
def WritesAlone (session : Session N) (action : Action N) : Prop :=
  ∀ ticket ∈ session.writes action, session.user.Exclusive encode ticket

instance (session : Session N) (action : Action N) :
    Decidable (session.WritesAlone action) := by
  unfold WritesAlone
  infer_instance

/-- A step of the session is at most one step of the user's stream. -/
theorem Transition.user (h : Transition variant session action after)
    (hguard : session.WritesAlone action) :
    after.user = session.user ∨
      ∃ move, session.user.OneAtATime encode move ∧
        session.user.step encode move = some after.user := by
  cases h with
  | configured =>
      exact Or.inr ⟨.begin _, trivial, rfl⟩
  | examineValid =>
      exact Or.inr ⟨.begin _, trivial, rfl⟩
  | respPiece hphase hpiece =>
      have halone := hguard _ (by rw [writes, hphase]; rfl)
      exact Or.inr ⟨.piece _ _, halone, hpiece⟩
  | forwardPiece _ hstage hpiece =>
      have halone := hguard _ (by rw [writes, hstage]; rfl)
      exact Or.inr ⟨.piece _ _, halone, hpiece⟩
  | _ => exact Or.inl rfl

/-- As long as nobody writes to the user while another message is partly out,
the user's stream is a prefix of whole messages. -/
theorem user_whole_of_writesAlone [DecidableEq N] (variant : Variant)
    (nodes : List N) (config data receiver : Counter) {session : Session N}
    (h : Machine.Reaches (step variant) WritesAlone
      (initial nodes config data receiver) session) :
    session.user.Whole encode := by
  apply SharedStream.whole_of_oneAtATime
  apply h.view Session.user
  intro before action after hguard hstep
  exact (transition_of_step hstep).2.user hguard

/-- Two nodes have each sent a result, and both loops are about to forward it. -/
def twoForwards : List (Action Nat) :=
  configuration (.config 1 1) [0, 1] ++
    [.nodeMessage ⟨0, .waiting⟩ (.ok (.data 5)) none,
      .nodeMessage ⟨1, .waiting⟩ (.ok (.data 6)) none,
      .examine ⟨0, .received (.ok ⟨4, .data 5⟩) none⟩,
      .examine ⟨1, .received (.ok ⟨5, .data 6⟩) none⟩]

/-- Each message is put out in pieces, one after the other. -/
theorem user_whole_of_writesAlone_two :
    ∃ session : Session Nat,
      Machine.run (step .queue) WritesAlone (initial [0, 1] ⟨0⟩ ⟨0⟩ ⟨0⟩)
        (twoForwards ++
          [.forwardPiece ⟨0, .forwarding ⟨4, .data 5⟩ 1 none⟩ 6,
            .forwardPiece ⟨0, .forwarding ⟨4, .data 5⟩ 1 none⟩ 7,
            .forwardPiece ⟨1, .forwarding ⟨5, .data 6⟩ 2 none⟩ 4]) =
          some session ∧
      session.user.wire.length = 26 ∧ session.user.Whole encode :=
  ⟨_, rfl, rfl,
    user_whole_of_writesAlone .queue [0, 1] ⟨0⟩ ⟨0⟩ ⟨0⟩
      (Machine.reaches_of_run
        (twoForwards ++
          [.forwardPiece ⟨0, .forwarding ⟨4, .data 5⟩ 1 none⟩ 6,
            .forwardPiece ⟨0, .forwarding ⟨4, .data 5⟩ 1 none⟩ 7,
            .forwardPiece ⟨1, .forwarding ⟨5, .data 6⟩ 2 none⟩ 4]) rfl)⟩

/-- The response, and then one byte of each of the two results. -/
def tornUser : SharedStream ValidMessage UInt8 where
  wire := [2, 0, 0, 0, 1, 0, 0, 0, 0, 3, 3]
  sends := [⟨.newConfigResp (fun _ => 0) .success, 9⟩, ⟨.data 5, 1⟩,
    ⟨.data 6, 1⟩]

theorem tornUser_not_whole : ¬tornUser.Whole encode := by
  rintro ⟨order, hnodup, hlt, hprefix⟩
  have hresponse : tornUser.bytesOf encode 0 = [2, 0, 0, 0, 1, 0, 0, 0, 0] := rfl
  have hresult : ∀ ticket < 3, ticket ≠ 0 →
      ∃ tail, tornUser.bytesOf encode ticket = 3 :: 0 :: tail := by
    intro ticket hticket hne
    match ticket, hticket with
    | 1, _ => exact ⟨_, rfl⟩
    | 2, _ => exact ⟨_, rfl⟩
  -- The first message is the response, and no other begins with two threes.
  cases order with
  | nil => simp [tornUser] at hprefix
  | cons first rest =>
      rw [List.flatMap_cons] at hprefix
      by_cases hfirst : first = 0
      · subst hfirst
        rw [hresponse] at hprefix
        cases rest with
        | nil => simp [tornUser] at hprefix
        | cons second others =>
            obtain ⟨tail, htail⟩ := hresult second (hlt second (by simp)) (by
              rintro rfl
              simp at hnodup)
            rw [List.flatMap_cons, htail] at hprefix
            simp [tornUser] at hprefix
      · obtain ⟨tail, htail⟩ := hresult first (hlt first (by simp)) hfirst
        rw [htail] at hprefix
        simp [tornUser] at hprefix

/-- The two loops put out one byte each. -/
theorem user_not_whole :
    ∃ session : Session Nat,
      Machine.Reachable (step .queue) (initial [0, 1] ⟨0⟩ ⟨0⟩ ⟨0⟩) session ∧
        ¬session.user.Whole encode := by
  refine ⟨_, Machine.reaches_of_run
    (twoForwards ++
      [.forwardPiece ⟨0, .forwarding ⟨4, .data 5⟩ 1 none⟩ 1,
        .forwardPiece ⟨1, .forwarding ⟨5, .data 6⟩ 2 none⟩ 1]) rfl, ?_⟩
  exact tornUser_not_whole

end Session

end FpgaFramework
