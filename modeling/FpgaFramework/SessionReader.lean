/-
What the user can read.  A reader of the user's stream gets the frames that are
whole so far; where nobody writes while another message is partly out, these are
the response and then messages that were handed over, none of them twice.
-/
import FpgaFramework.FrameStream
import FpgaFramework.SessionUser

namespace FpgaFramework

open scoped List

/-! Reading a stream that is still being written. -/

theorem parseFrame_append_of_ok {bytes rest : List UInt8} {frame : Frame}
    (h : parseFrame bytes = (.ok frame, rest)) (more : List UInt8) :
    parseFrame (bytes ++ more) = (.ok frame, rest ++ more) := by
  obtain ⟨hvalid, ignored, rfl⟩ := (parseFrame_ok_iff bytes frame rest).mp h
  rw [parseFrame_ok_iff]
  exact ⟨hvalid, ignored, List.append_assoc _ _ _⟩

/-- What was read stays what is read first. -/
theorem frames_drain_mono {bytes more : List UInt8} (h : bytes <+: more) :
    (frames.drain bytes).items <+: (frames.drain more).items := by
  induction hn : bytes.length using Nat.strong_induction_on
    generalizing bytes more with
  | h n ih =>
      obtain ⟨tail, rfl⟩ := h
      rcases hparse : parseFrame bytes with ⟨error | frame, rest⟩
      · rw [frames.drain_of_error hparse]
        exact List.nil_prefix
      · rw [frames.drain_of_ok hparse,
          frames.drain_of_ok (parseFrame_append_of_ok hparse tail)]
        have hless := parseFrame_length hparse
        have hrest := ih _ (hn ▸ hless) (List.prefix_append rest tail) rfl
        exact (List.prefix_cons_inj frame).mpr hrest

/-- A message that is only partly out is not read, and is no error. -/
theorem parseFrame_take {message : Message} (hvalid : message.isValidMessage = true)
    {written : Nat} (hpart : written < message.asBytes.length) :
    parseFrame (message.asBytes.take written) = (.error .truncated, []) := by
  obtain ⟨hgood, hlength, _⟩ := (Message.isValidMessage_iff message).mp hvalid
  have hheader := Header.length_asBytes message.header
  rw [Message.length_asBytes] at hpart
  simp only [sizeofHeader] at hheader hpart
  by_cases hshort : written < 8
  · rw [parseFrame, if_pos]
    exact (List.length_take_le _ _).trans_lt hshort
  · have hsplit : message.asBytes.take written =
        message.header.asBytes ++ message.payload.take (written - 8) := by
      rw [Message.asBytes, List.take_append, hheader,
        List.take_of_length_le (by omega)]
    have hbody : (message.payload.take (written - 8)).length <
        message.header.payloadSize.toNat := by
      rw [List.length_take]
      omega
    have hvalidHeader : (Header.ofBytes message.header.asBytes).isValid = true := by
      rw [Header.isValid_iff, Header.ofBytes_asBytes_type,
        Header.ofBytes_asBytes_payloadSize, ← Header.isValid_iff]
      exact hgood
    rw [hsplit, parseFrame_append _ _ hheader, if_neg (by simp [hvalidHeader]),
      Header.ofBytes_asBytes_payloadSize, if_pos hbody]

/-- Whole messages and a part of one more. -/
theorem frames_drain_append {rest : List UInt8}
    (hrest : parseFrame rest = (.error .truncated, []))
    (messages : List ValidMessage) :
    frames.drain (messages.flatMap Session.encode ++ rest) =
      ⟨messages.map fun message => message.1.frame, .truncated, []⟩ := by
  induction messages with
  | nil => exact frames.drain_of_error hrest
  | cons message others ih =>
      obtain ⟨hframe, hbytes⟩ := Message.frame_valid message.2
      have hparse : parseFrame ((message :: others).flatMap Session.encode ++ rest) =
          (.ok message.1.frame, others.flatMap Session.encode ++ rest) := by
        rw [parseFrame_ok_iff]
        refine ⟨hframe, message.1.header.reserved, ?_⟩
        rw [List.flatMap_cons, List.append_assoc, Session.encode, hbytes]
      rw [frames.drain_of_ok hparse, ih]
      rfl

theorem frames_drain_flatMap (messages : List ValidMessage) :
    frames.drain (messages.flatMap Session.encode) =
      ⟨messages.map fun message => message.1.frame, .truncated, []⟩ := by
  have hnothing : parseFrame [] = (.error .truncated, []) := rfl
  have hdrain := frames_drain_append hnothing messages
  rwa [List.append_nil] at hdrain

namespace SharedStream

variable {M : Type*} {B : Type*} {encode : M → List B}

/-- The messages with these tickets. -/
def pick (stream : SharedStream M B) (order : List Nat) : List M :=
  order.filterMap fun ticket => stream.messages[ticket]?

theorem flatMap_pick (stream : SharedStream M B) (order : List Nat) :
    (stream.pick order).flatMap encode = order.flatMap (stream.bytesOf encode) := by
  induction order with
  | nil => rfl
  | cons ticket rest ih =>
      have hmessage : stream.messages[ticket]? =
          stream.sends[ticket]?.map Transfer.message := List.getElem?_map
      rw [List.flatMap_cons, ← ih, pick, pick, bytesOf]
      cases hsend : stream.sends[ticket]? with
      | none =>
          rw [hsend] at hmessage
          rw [List.filterMap_cons_none hmessage]
          rfl
      | some transfer =>
          rw [hsend] at hmessage
          rw [List.filterMap_cons_some hmessage, List.flatMap_cons]
          rfl

theorem filterMap_range_getElem? (items : List M) :
    ((List.range items.length).filterMap fun index => items[index]?) = items := by
  induction items using List.reverseRecOn with
  | nil => rfl
  | append_singleton items item ih =>
      rw [List.length_append, List.length_singleton, List.range_succ,
        List.filterMap_append]
      have hinit : ((List.range items.length).filterMap fun index =>
          (items ++ [item])[index]?) = items := by
        refine Eq.trans (List.filterMap_congr ?_) ih
        intro index hmem
        exact List.getElem?_append_left (List.mem_range.mp hmem)
      rw [hinit]
      simp

/-- Different tickets pick messages in different places. -/
theorem pick_subperm (stream : SharedStream M B) {order : List Nat}
    (hnodup : order.Nodup) (hlt : ∀ ticket ∈ order, ticket < stream.sends.length) :
    stream.pick order <+~ stream.messages := by
  have hsub : order <+~ List.range stream.messages.length := by
    apply hnodup.subperm
    intro ticket hmem
    rw [List.mem_range, messages, List.length_map]
    exact hlt ticket hmem
  obtain ⟨tickets, hperm, hsublist⟩ := hsub
  have hpick : tickets.filterMap (fun ticket => stream.messages[ticket]?) <+
      stream.messages := by
    have hall := hsublist.filterMap fun ticket => stream.messages[ticket]?
    rwa [filterMap_range_getElem?] at hall
  exact ⟨_, hperm.filterMap _, hpick⟩

/-- The bytes of every message that are out. -/
def out (encode : M → List B) (transfer : Transfer M) : List B :=
  (encode transfer.message).take transfer.written

/-- Every byte on the wire is one that was put out. -/
theorem wire_perm_of_piece {stream after : SharedStream M B} {ticket count : Nat}
    (hwire : stream.wire ~ stream.sends.flatMap (out encode))
    (h : stream.piece encode ticket count = some after) :
    after.wire ~ after.sends.flatMap (out encode) := by
  obtain ⟨transfer, hget, _, _, hafter, hsends⟩ := piece_eq_some h
  obtain ⟨hlt, hentry⟩ := List.getElem?_eq_some_iff.mp hget
  have hsplit : stream.sends =
      stream.sends.take ticket ++ transfer :: stream.sends.drop (ticket + 1) := by
    rw [← hentry, ← List.drop_eq_getElem_cons hlt, List.take_append_drop]
  have hmoved : out encode ⟨transfer.message, transfer.written + count⟩ =
      out encode transfer ++
        ((encode transfer.message).drop transfer.written).take count := by
    rw [out, out, ← List.take_add]
  rw [hafter, hsends, List.set_eq_take_append_cons_drop, if_pos hlt,
    List.flatMap_append, List.flatMap_cons, hmoved]
  rw [hsplit, List.flatMap_append, List.flatMap_cons] at hwire
  refine (hwire.append_right _).trans ?_
  rw [List.append_assoc, List.append_assoc, List.append_assoc]
  exact ((List.perm_append_comm.append_left _)).append_left _

/-- Messages that make up as many bytes as all of them are all of them. -/
theorem perm_of_length_flatMap {picked messages : List M}
    (hpicked : picked <+~ messages) (hbytes : ∀ message, encode message ≠ [])
    (hlength : (messages.flatMap encode).length ≤ (picked.flatMap encode).length) :
    picked ~ messages := by
  obtain ⟨middle, hmiddle, hsublist⟩ := hpicked
  obtain ⟨rest, hperm⟩ := hsublist.exists_perm_append
  have hcount := (hperm.flatMap_right encode).length_eq
  rw [List.flatMap_append, List.length_append,
    (hmiddle.flatMap_right encode).length_eq] at hcount
  cases rest with
  | nil =>
      rw [List.append_nil] at hperm
      exact hmiddle.symm.trans hperm.symm
  | cons message others =>
      have hsome := List.length_pos_of_ne_nil (hbytes message)
      rw [List.flatMap_cons, List.length_append] at hcount
      omega

theorem not_done_of_torn {stream : SharedStream M B} {ticket : Nat}
    {transfer : Transfer M} (hget : stream.sends[ticket]? = some transfer)
    (htorn : Transfer.Torn encode transfer) : ¬stream.Done encode ticket := by
  rintro ⟨other, hother, hfull⟩
  rw [hget] at hother
  cases hother
  exact absurd htorn.2 (hfull ▸ lt_irrefl _)

/-- A stream on which every message is finished. -/
theorem flatMap_out_of_done {stream : SharedStream M B}
    (hdone : ∀ ticket < stream.sends.length, stream.Done encode ticket) :
    stream.sends.flatMap (out encode) = stream.messages.flatMap encode := by
  rw [messages, List.flatMap_map]
  apply List.flatMap_congr
  intro transfer hmem
  obtain ⟨ticket, hlt, rfl⟩ := List.getElem_of_mem hmem
  obtain ⟨other, hother, hfull⟩ := hdone ticket hlt
  rw [List.getElem?_eq_getElem hlt] at hother
  cases hother
  rw [out, hfull, List.take_length]

end SharedStream

namespace Session

variable {N : Type} {variant : Variant} {session after : Session N}
  {action : Action N}

/-- The frames that the user can have read. -/
def reads (session : Session N) : List Frame :=
  (frames.drain session.user.wire).items

theorem Transition.wire_mono (h : Transition variant session action after) :
    session.user.wire <+: after.user.wire := by
  cases h with
  | respPiece _ hpiece | forwardPiece _ _ hpiece =>
      obtain ⟨_, _, _, _, hwire, _⟩ := SharedStream.piece_eq_some hpiece
      rw [hwire]
      exact List.prefix_append _ _
  | _ => exact List.prefix_refl _

/-- Where the response is: not begun, alone on the stream, or out in front of
everything else. -/
inductive ResponseAhead (session : Session N) : Prop
  | nothing (hsends : session.user.sends = []) (hwire : session.user.wire = [])
  | alone (memory : Message.Memory) (written : Nat)
      (hsends : session.user.sends = [⟨.newConfigResp memory .success, written⟩])
      (hwire : session.user.wire =
        (encode (.newConfigResp memory .success)).take written)
  | front (memory : Message.Memory)
      (hwire : encode (.newConfigResp memory .success) <+: session.user.wire)

theorem ResponseAhead.begin (hout : session.ResponseAhead) (message : ValidMessage)
    (hdone : session.user.Done encode 0) {changed : Session N}
    (huser : changed.user = session.user.begin message) : changed.ResponseAhead := by
  cases hout with
  | nothing hsends =>
      obtain ⟨transfer, hget, _⟩ := hdone
      rw [hsends] at hget
      cases hget
  | alone memory written hsends hwire =>
      obtain ⟨transfer, hget, hfull⟩ := hdone
      rw [hsends] at hget
      cases hget
      have hwritten : written =
        (encode (.newConfigResp memory .success)).length := hfull
      refine ResponseAhead.front memory ?_
      rw [huser, SharedStream.begin, hwire, hwritten, List.take_length]
  | front memory hwire =>
      refine ResponseAhead.front memory ?_
      rw [huser]
      exact hwire

theorem ResponseAhead.piece (hout : session.ResponseAhead) {ticket count : Nat}
    {user : SharedStream ValidMessage UInt8}
    (hpiece : session.user.piece encode ticket count = some user)
    {changed : Session N} (huser : changed.user = user) : changed.ResponseAhead := by
  obtain ⟨transfer, hget, _, _, hwire, hsends⟩ := SharedStream.piece_eq_some hpiece
  cases hout with
  | nothing hnone =>
      rw [hnone] at hget
      cases hget
  | alone memory written hone hbefore =>
      rw [hone] at hget hsends
      cases ticket with
      | zero =>
          cases hget
          refine ResponseAhead.alone memory (written + count) ?_ ?_
          · rw [huser, hsends]
            rfl
          · rw [huser, hwire, hbefore, List.take_add]
      | succ other => cases hget
  | front memory hbefore =>
      refine ResponseAhead.front memory ?_
      rw [huser, hwire]
      exact hbefore.trans (List.prefix_append _ _)

theorem ResponseAhead.transition (hout : session.ResponseAhead)
    (hfirst : session.ResponseFirst) (hearly : session.Early)
    (hrunning : session.Running) (h : Transition variant session action after) :
    after.ResponseAhead := by
  cases h with
  | @configured memory response hphase _ hresponse =>
      have hnone := hfirst.none (Or.inr hphase)
      rw [SharedStream.messages, List.map_eq_nil_iff] at hnone
      cases hout with
      | nothing _ hwire =>
          refine ResponseAhead.alone memory 0 ?_ ?_
          · simp [SharedStream.begin, hnone, hresponse]
          · simp [SharedStream.begin, hwire]
      | alone _ _ hsends =>
          rw [hnone] at hsends
          cases hsends
      | front other hwire => exact ResponseAhead.front other hwire
  | respPiece _ hpiece | forwardPiece _ _ hpiece => exact hout.piece hpiece rfl
  | examineValid hperm =>
      have hmain := hearly.mainLoop_of_loop hrunning hperm
      exact hout.begin _ (hfirst.mainLoop hmain) rfl
  | _ =>
      cases hout with
      | nothing hsends hwire => exact ResponseAhead.nothing hsends hwire
      | alone memory written hsends hwire =>
          exact ResponseAhead.alone memory written hsends hwire
      | front memory hwire => exact ResponseAhead.front memory hwire

/-- The user's stream as its reader relies on it. -/
structure Readable (session : Session N) : Prop where
  early : session.Early
  first : session.ResponseFirst
  settled : session.user.Settled encode
  response : session.ResponseAhead
  bytes : session.user.wire ~ session.user.sends.flatMap (SharedStream.out encode)

theorem Readable.initial {nodes : List N} {config data receiver : Counter} :
    Readable (initial nodes config data receiver) where
  early := Early.initial nodes config data receiver
  first := ResponseFirst.initial
  settled := SharedStream.settled_empty
  response := .nothing rfl rfl
  bytes := List.Perm.refl _

theorem Readable.transition (hread : session.Readable)
    (hguard : session.WritesAlone action) (hrunning : session.Running)
    (h : Transition variant session action after) : after.Readable where
  early := hread.early.transition h
  first := hread.first.transition hread.early hrunning h
  settled := by
    rcases h.user hguard with hsame | ⟨move, halone, hmove⟩
    · rw [hsame]
      exact hread.settled
    · cases move with
      | begin message =>
          have hbegin : session.user.begin message = after.user :=
            Option.some.inj hmove
          rw [← hbegin]
          exact hread.settled.begin message
      | piece ticket count => exact hread.settled.piece halone hmove
  response := hread.response.transition hread.first hread.early hrunning h
  bytes := by
    rcases h.user hguard with hsame | ⟨move, _, hmove⟩
    · rw [hsame]
      exact hread.bytes
    · cases move with
      | begin message =>
          have hbegin : session.user.begin message = after.user :=
            Option.some.inj hmove
          rw [← hbegin]
          simpa [SharedStream.begin, SharedStream.out] using hread.bytes
      | piece ticket count => exact SharedStream.wire_perm_of_piece hread.bytes hmove

theorem readable_of_reaches [DecidableEq N] {nodes : List N}
    {config data receiver : Counter}
    (h : Machine.Reaches (step variant) WritesAlone
      (initial nodes config data receiver) session) : session.Readable := by
  apply h.invariant Readable.initial
  intro before action after hread hguard hstep
  obtain ⟨hrunning, htransition⟩ := transition_of_step hstep
  exact hread.transition hguard hrunning htransition

/-- The response as the user reads it. -/
def responseFrame : Frame := ⟨.configResp, 1, [ConfigRespStatus.success.byte]⟩

/-- What can be read are whole messages that were handed over, each at most once;
and there is never a frame that is refused. -/
theorem Readable.reads_eq (hread : session.Readable) :
    (frames.drain session.user.wire).error = .truncated ∧
      ∃ picked : List ValidMessage, picked <+~ session.user.messages ∧
        session.reads = picked.map (fun message => message.1.frame) ∧
          (picked.flatMap encode = session.user.wire ∨
            ∃ (ticket : Nat) (transfer : Transfer ValidMessage),
              session.user.sends[ticket]? = some transfer ∧
                SharedStream.Transfer.Torn encode transfer) := by
  obtain ⟨order, hnodup, hdone, hcase⟩ := hread.settled
  have hpicked := session.user.pick_subperm hnodup fun ticket hmem =>
    (hdone ticket hmem).lt_length
  have hrow : (session.user.pick order).flatMap encode =
      order.flatMap (session.user.bytesOf encode) := session.user.flatMap_pick order
  rcases hcase with ⟨hwire, _⟩ | ⟨ticket, transfer, hget, htorn, _, hwire⟩
  · have hdrain := frames_drain_flatMap (session.user.pick order)
    rw [hrow, ← hwire] at hdrain
    rw [reads, hdrain]
    exact ⟨rfl, _, hpicked, rfl, Or.inl (hrow.trans hwire.symm)⟩
  · have hdrain := frames_drain_append
      (parseFrame_take transfer.message.2 htorn.2) (session.user.pick order)
    rw [hrow] at hdrain
    rw [reads, hwire]
    exact ⟨congrArg Drained.error hdrain, _, hpicked, congrArg Drained.items hdrain,
      Or.inr ⟨ticket, transfer, hget, htorn⟩⟩

/-- The response is read first, and then results that were forwarded. -/
theorem Readable.reads_tail (hread : session.Readable) {first : Frame}
    {rest : List Frame} (hreads : session.reads = first :: rest) :
    first = responseFrame ∧
      rest <+~ session.forwarded.map fun entry => entry.2.message.1.frame := by
  have hone : ∀ memory, frames.drain (encode (.newConfigResp memory .success)) =
      ⟨[responseFrame], .truncated, []⟩ := by
    intro memory
    have hdrain := frames_drain_flatMap [.newConfigResp memory .success]
    rwa [List.flatMap_singleton] at hdrain
  have hfirst : first = responseFrame := by
    rw [reads] at hreads
    cases hread.response with
    | nothing _ hwire =>
        rw [hwire, ← List.flatMap_nil (f := encode), frames_drain_flatMap] at hreads
        cases hreads
    | alone memory written hsends hwire =>
        have hprefix : session.user.wire <+:
            encode (.newConfigResp memory .success) := by
          rw [hwire]
          exact List.take_prefix _ _
        have hitems := frames_drain_mono hprefix
        rw [hone, hreads] at hitems
        exact (List.cons_prefix_cons.mp hitems).1
    | front memory hwire =>
        have hitems := frames_drain_mono hwire
        rw [hone, hreads] at hitems
        exact (List.cons_prefix_cons.mp hitems).1.symm
  refine ⟨hfirst, ?_⟩
  obtain ⟨_, picked, hpicked, heq, _⟩ := hread.reads_eq
  have hframes : session.reads <+~
      session.user.messages.map fun message => message.1.frame := by
    obtain ⟨messages, hperm, hsublist⟩ := hpicked
    rw [heq]
    exact ⟨_, hperm.map _, hsublist.map _⟩
  rcases hread.first.order with ⟨hnone, _⟩ | ⟨memory, hsome⟩
  · rw [hnone, hreads] at hframes
    exact absurd (List.subperm_nil.mp hframes) (List.cons_ne_nil _ _)
  · rw [hsome, hreads, hfirst, List.map_cons, List.map_map] at hframes
    exact (List.subperm_cons responseFrame).mp hframes

/-- Once every message that was handed over is out, the user reads every one of
them. -/
theorem Readable.reads_perm (hread : session.Readable)
    (hdone : ∀ ticket < session.user.sends.length, session.user.Done encode ticket) :
    session.reads ~ session.user.messages.map fun message => message.1.frame := by
  obtain ⟨_, picked, hpicked, hreads, hwhole | ⟨ticket, transfer, hget, htorn⟩⟩ :=
    hread.reads_eq
  · have hbytes : ∀ message : ValidMessage, encode message ≠ [] := by
      intro message hnone
      have hlength := congrArg List.length hnone
      rw [encode, Message.length_asBytes, sizeofHeader] at hlength
      simp at hlength
    have hlength := hread.bytes.length_eq
    rw [SharedStream.flatMap_out_of_done hdone, ← hwhole] at hlength
    rw [hreads]
    exact (SharedStream.perm_of_length_flatMap hpicked hbytes hlength.ge).map _
  · obtain ⟨hlt, _⟩ := List.getElem?_eq_some_iff.mp hget
    exact absurd (hdone ticket hlt) (SharedStream.not_done_of_torn hget htorn)

/-- What a user receives that calls `receive_message` until it fails, on a stream
that ends with what is out so far. -/
def userReceives (session : Session N) (cut : Nat → Nat)
    (memory : Nat → Message.Memory) : Drained Inbound ErrorCode ValidMessage :=
  receiver.drain (Inbound.ofStream session.user.wire cut memory)

theorem frames_userReceives (session : Session N) (cut : Nat → Nat)
    (memory : Nat → Message.Memory) :
    (session.userReceives cut memory).items.map (fun message => message.1.frame) =
        session.reads ∧
      (session.userReceives cut memory).error =
        (frames.drain session.user.wire).error.code := by
  obtain ⟨hitems, herror, _⟩ := receiver_drain session.user.wire cut memory
  exact ⟨hitems, herror⟩

/-- What the user has received is right: no frame is refused, the response comes
first and results that were forwarded follow, none of them twice, and nothing is
missing once every message is out. -/
structure UserReceived (session : Session N)
    (received : Drained Inbound ErrorCode ValidMessage) : Prop where
  noneRefused : received.error = .eof
  responseFirst : received.items = [] ∨
    ∃ response results, received.items = response :: results ∧
      response.1.frame = responseFrame ∧
        results.map (fun result => result.1.frame) <+~
          session.forwarded.map fun entry => entry.2.message.1.frame
  complete : session.user.messages ≠ [] →
    (∀ ticket < session.user.sends.length, session.user.Done encode ticket) →
      received.items.map (fun message => message.1.frame) ~
        responseFrame :: session.forwarded.map fun entry => entry.2.message.1.frame

theorem Readable.userReceived (hread : session.Readable) (cut : Nat → Nat)
    (memory : Nat → Message.Memory) :
    session.UserReceived (session.userReceives cut memory) := by
  obtain ⟨hitems, herror⟩ := session.frames_userReceives cut memory
  constructor
  · rw [herror, hread.reads_eq.1]
    rfl
  · cases hreceived : (session.userReceives cut memory).items with
    | nil => exact Or.inl rfl
    | cons response results =>
        rw [hreceived, List.map_cons] at hitems
        obtain ⟨hfirst, hrest⟩ := hread.reads_tail hitems.symm
        exact Or.inr ⟨response, results, rfl, hfirst, hrest⟩
  · intro hsome hdone
    rw [hitems]
    refine (hread.reads_perm hdone).trans ?_
    rcases hread.first.order with ⟨hnone, _⟩ | ⟨memory, hmessages⟩
    · exact absurd hnone hsome
    · rw [hmessages, List.map_cons, List.map_map]
      exact List.Perm.refl _

theorem wire_mono_of_reaches [DecidableEq N] {guard : Session N → Action N → Prop}
    (h : Machine.Reaches (step variant) guard session after) :
    session.user.wire <+: after.user.wire := by
  induction h with
  | refl => exact List.prefix_refl _
  | tail _ _ hstep ih => exact ih.trans (transition_of_step hstep).2.wire_mono

/-- In every run in which no two messages are written at once, the user receives
what it was sent; and what it has received stays what it received first. -/
theorem userReceived_of_reaches [DecidableEq N] (variant : Variant) (nodes : List N)
    (config data receiver : Counter) (cut later : Nat → Nat)
    (memory memoryLater : Nat → Message.Memory)
    (hreach : Machine.Reaches (step variant) WritesAlone
      (initial nodes config data receiver) session)
    (hafter : Machine.Reaches (step variant) WritesAlone session after) :
    session.UserReceived (session.userReceives cut memory) ∧
      (session.userReceives cut memory).items.map
          (fun message => message.1.frame) <+:
        (after.userReceives later memoryLater).items.map
          fun message => message.1.frame := by
  refine ⟨(readable_of_reaches hreach).userReceived cut memory, ?_⟩
  rw [(session.frames_userReceives cut memory).1,
    (after.frames_userReceives later memoryLater).1]
  exact frames_drain_mono (wire_mono_of_reaches hafter)

/-- One result is out and the other one is partly out; then both are out. -/
theorem userReceived_of_reaches_two :
    ∃ session after : Session Nat,
      Machine.run (step .queue) WritesAlone (initial [0, 1] ⟨0⟩ ⟨0⟩ ⟨0⟩)
        (twoForwards ++
          [.forwardPiece ⟨0, .forwarding ⟨4, .data 5⟩ 1 none⟩ 13,
            .forwardPiece ⟨1, .forwarding ⟨5, .data 6⟩ 2 none⟩ 4]) =
          some session ∧
      Machine.run (step .queue) WritesAlone session
        [.forwardPiece ⟨1, .forwarding ⟨5, .data 6⟩ 2 none⟩ 9] = some after ∧
      session.user.wire.length = 26 ∧ after.user.wire.length = 35 ∧
      ∀ (cut later : Nat → Nat) (memory : Nat → Message.Memory),
        session.UserReceived (session.userReceives cut memory) ∧
          (session.userReceives cut memory).items.map
              (fun message => message.1.frame) <+:
            (after.userReceives later memory).items.map
              fun message => message.1.frame := by
  refine ⟨_, _, rfl, rfl, rfl, rfl, fun cut later memory => ?_⟩
  exact userReceived_of_reaches .queue [0, 1] ⟨0⟩ ⟨0⟩ ⟨0⟩ cut later memory memory
    (Machine.reaches_of_run
      (twoForwards ++
        [.forwardPiece ⟨0, .forwarding ⟨4, .data 5⟩ 1 none⟩ 13,
          .forwardPiece ⟨1, .forwarding ⟨5, .data 6⟩ 2 none⟩ 4]) rfl)
    (Machine.reaches_of_run
      [.forwardPiece ⟨1, .forwarding ⟨5, .data 6⟩ 2 none⟩ 9] rfl)

end Session

end FpgaFramework
