import SideSwap.DealerTrading
import SideSwap.History

/-! # The calls of the dealers

    Both dealers talk to the server through the socket thread of `ws/auto.rs`,
    which connects again by itself.  A handler that needs an answer sends its
    request and waits for the next response, whatever its id, and panics if none
    comes within half a minute.  Requests and responses may be lost with a
    connection, and a request may wait for the next one.

    That a response is never taken for the answer to another request rests on
    the panic: a dealer that goes on has read the answer to its last request, so
    nothing of it is left on the way. -/

namespace ServerCalls

open Transition History

/-! ## The parties -/

section Model

variable (Req Resp Note : Type)

/-- `RequestMessage`. -/
structure Call where
  requestId : Nat
  request : Req

/-- `ResponseMessage`; a response is a result or an error. -/
inductive ResponseMessage where
  | response (requestId : Nat) (res : Resp)
  | notification (msg : Note)

/-- `WrappedResponse`. -/
inductive WrappedResponse where
  | connected
  | disconnected
  | response (msg : ResponseMessage Resp Note)

/-- What of `Msg` comes from the socket thread. -/
inductive Msg where
  | connected
  | disconnected
  | notification (msg : Note)

/-- What the dealer's thread does. -/
inductive Caller where
  | free
  | waiting (call : Call Req)
  | panicked

/-- Where `run` is. -/
inductive Socket where
  | connecting (reconnectCount : Nat)
  | connected
  | panicked
deriving DecidableEq

/-- What the parties do. -/
inductive Event where
  | called (call : Call Req)
  /-- the server takes a request -/
  | served (call : Call Req)
  | answered (call : Call Req) (res : Resp)
  | returned (call : Call Req) (res : Resp)
  | opened
  | notified (msg : Note)
  | closed
  | taken (msg : Msg Note)

/-- The dealer, the socket thread, the server, and what is between them. -/
structure System where
  caller : Caller Req
  nextRequestId : Nat
  /-- `req_rx` -/
  requests : List (Call Req)
  /-- `req_rx_async` -/
  requestsAsync : List (Call Req)
  socket : Socket
  /-- on the way to the server -/
  sent : List (Call Req)
  /-- what the server works on -/
  working : List (Call Req)
  /-- on the way from the server; some texts cannot be read -/
  received : List (Option (ResponseMessage Resp Note))
  /-- `ws_rx` -/
  responses : List (WrappedResponse Resp Note)
  /-- `resp_rx` -/
  replies : List Resp
  /-- `msg_rx` -/
  msgs : List (Msg Note)
  log : List (Event Req Resp Note)

inductive Input where
  /-- a handler calls `send_request` -/
  | call (req : Req)
  /-- the thread between the two queues of requests -/
  | bridge
  /-- the result of `connect_async` -/
  | connect (success : Bool)
  /-- `req_rx_async.recv()`; the stream may not take the request -/
  | send (taken : Bool)
  | serve
  /-- the server answers one of the requests that it works on -/
  | answer (index : Nat) (res : Resp)
  | notify (msg : Note)
  /-- the server sends a text that cannot be read -/
  | garble
  /-- `ws_stream.next()` returns what has arrived -/
  | next
  /-- it returns an error, or there was no pong in time -/
  | fail
  /-- it returns `None` -/
  | endOfStream
  /-- the thread that forwards what the socket thread says -/
  | forward
  /-- `resp_rx.recv_timeout` returns a response -/
  | receive
  /-- it has waited long enough -/
  | timeout
  /-- `msg_rx.recv()` -/
  | take

end Model

section Steps

variable {Req Resp Note : Type}

def System.emit (s : System Req Resp Note) (e : Event Req Resp Note) : System Req Resp Note :=
  { s with log := s.log ++ [e] }

/-- `send_request` up to its wait: only the thread of the loop calls it. -/
def System.call (s : System Req Resp Note) (req : Req) : System Req Resp Note :=
  match s.caller with
  | .free =>
      { s.emit (.called ⟨s.nextRequestId, req⟩) with
        caller := .waiting ⟨s.nextRequestId, req⟩
        nextRequestId := s.nextRequestId + 1
        requests := s.requests ++ [⟨s.nextRequestId, req⟩] }
  | _ => s

def System.bridge (s : System Req Resp Note) : System Req Resp Note :=
  match s.requests with
  | [] => s
  | call :: requests => { s with requests, requestsAsync := s.requestsAsync ++ [call] }

def System.connect (s : System Req Resp Note) (success : Bool) : System Req Resp Note :=
  match s.socket with
  | .connecting reconnectCount =>
      if success then
        { s.emit .opened with
          socket := .connected
          responses := s.responses ++ [.connected] }
      else { s with socket := .connecting (reconnectCount + 1) }
  | _ => s

/-- `let _ = ws_stream.send(..)`: nobody looks at the result. -/
def System.send (s : System Req Resp Note) (taken : Bool) : System Req Resp Note :=
  match s.socket, s.requestsAsync with
  | .connected, call :: requestsAsync =>
      { s with requestsAsync, sent := if taken then s.sent ++ [call] else s.sent }
  | _, _ => s

def System.serve (s : System Req Resp Note) : System Req Resp Note :=
  match s.sent with
  | [] => s
  | call :: sent => { s.emit (.served call) with sent, working := s.working ++ [call] }

def System.answer (s : System Req Resp Note) (index : Nat) (res : Resp) : System Req Resp Note :=
  match s.working[index]? with
  | none => s
  | some call =>
      { s.emit (.answered call res) with
        working := s.working.eraseIdx index
        received := s.received ++ [some (.response call.requestId res)] }

def System.notify (s : System Req Resp Note) (msg : Note) : System Req Resp Note :=
  match s.socket with
  | .connected =>
      { s.emit (.notified msg) with received := s.received ++ [some (.notification msg)] }
  | _ => s

def System.garble (s : System Req Resp Note) : System Req Resp Note :=
  match s.socket with
  | .connected => { s with received := s.received ++ [none] }
  | _ => s

/-- A text is parsed; a ping is answered without a trace. -/
def System.next (s : System Req Resp Note) : System Req Resp Note :=
  match s.socket, s.received with
  | .connected, some msg :: received =>
      { s with received, responses := s.responses ++ [.response msg] }
  | .connected, none :: received => { s with received }
  | _, _ => s

/-- The end of the loop of a connection. -/
def System.fail (s : System Req Resp Note) : System Req Resp Note :=
  match s.socket with
  | .connected =>
      { s.emit .closed with
        socket := .connecting 0
        sent := []
        working := []
        received := []
        responses := s.responses ++ [.disconnected] }
  | _ => s

/-- `server_msg.unwrap()`. -/
def System.endOfStream (s : System Req Resp Note) : System Req Resp Note :=
  match s.socket with
  | .connected => { s with socket := .panicked, sent := [], working := [], received := [] }
  | _ => s

/-- The id of a response is dropped. -/
def System.forward (s : System Req Resp Note) : System Req Resp Note :=
  match s.responses with
  | [] => s
  | .connected :: responses => { s with responses, msgs := s.msgs ++ [.connected] }
  | .disconnected :: responses => { s with responses, msgs := s.msgs ++ [.disconnected] }
  | .response (.response _ res) :: responses =>
      { s with responses, replies := s.replies ++ [res] }
  | .response (.notification msg) :: responses =>
      { s with responses, msgs := s.msgs ++ [.notification msg] }

def System.receive (s : System Req Resp Note) : System Req Resp Note :=
  match s.caller, s.replies with
  | .waiting call, res :: replies =>
      { s.emit (.returned call res) with caller := .free, replies }
  | _, _ => s

/-- `expect("request timeout")`. -/
def System.timeout (s : System Req Resp Note) : System Req Resp Note :=
  match s.caller, s.replies with
  | .waiting _, [] => { s with caller := .panicked }
  | _, _ => s

def System.take (s : System Req Resp Note) : System Req Resp Note :=
  match s.caller, s.msgs with
  | .free, msg :: msgs => { s.emit (.taken msg) with msgs }
  | _, _ => s

/-- One of the parties moves. -/
def step (s : System Req Resp Note) : Input Req Resp Note → System Req Resp Note
  | .call req => s.call req
  | .bridge => s.bridge
  | .connect success => s.connect success
  | .send taken => s.send taken
  | .serve => s.serve
  | .answer index res => s.answer index res
  | .notify msg => s.notify msg
  | .garble => s.garble
  | .next => s.next
  | .fail => s.fail
  | .endOfStream => s.endOfStream
  | .forward => s.forward
  | .receive => s.receive
  | .timeout => s.timeout
  | .take => s.take

def first : System Req Resp Note where
  caller := .free
  nextRequestId := 1
  requests := []
  requestsAsync := []
  socket := .connecting 0
  sent := []
  working := []
  received := []
  responses := []
  replies := []
  msgs := []
  log := []

/-- The states of all runs. -/
abbrev Runs : System Req Resp Note → Prop :=
  Reach (· = first) step fun _ _ => True

end Steps

/-! ## One answer for each call -/

section Calls

variable {Req Resp Note : Type}

def Event.called? : Event Req Resp Note → Option (Call Req)
  | .called call => some call
  | _ => none

def Event.returned? : Event Req Resp Note → Option (Call Req × Resp)
  | .returned call res => some (call, res)
  | _ => none

def ResponseMessage.res? : ResponseMessage Resp Note → Option Resp
  | .response _ res => some res
  | .notification _ => none

def WrappedResponse.res? : WrappedResponse Resp Note → Option Resp
  | .response msg => msg.res?
  | _ => none

def Caller.call? : Caller Req → Option (Call Req)
  | .waiting call => some call
  | _ => none

/-- The requests on their way, or at the server. -/
def System.asked (s : System Req Resp Note) : List (Call Req) :=
  s.requests ++ s.requestsAsync ++ s.sent ++ s.working

/-- The responses on their way. -/
def System.answers (s : System Req Resp Note) : List Resp :=
  s.received.filterMap (fun text => text.bind ResponseMessage.res?) ++
    s.responses.filterMap WrappedResponse.res? ++ s.replies

/-- All that is on the way is the request that the dealer waits for, or the answer to it. -/
structure System.Outstanding (s : System Req Resp Note) (call? : Option (Call Req)) : Prop where
  few : s.asked.length + s.answers.length ≤ call?.toList.length
  asked : ∀ call ∈ s.asked, call? = some call
  answered : ∀ res ∈ s.answers, ∃ call, call? = some call ∧ .answered call res ∈ s.log

/-- What the others do: nothing new is on the way but answers to what was asked. -/
structure Carries (s s' : System Req Resp Note) : Prop where
  caller : s'.caller = s.caller
  number : s'.nextRequestId = s.nextRequestId
  few : s'.asked.length + s'.answers.length ≤ s.asked.length + s.answers.length
  asked : ∀ call ∈ s'.asked, call ∈ s.asked
  answers : ∀ res ∈ s'.answers, res ∈ s.answers ∨ ∃ call ∈ s.asked, .answered call res ∈ s'.log
  log : ∃ es, s'.log = s.log ++ es ∧ es.filterMap Event.called? = [] ∧
    es.filterMap Event.returned? = []

theorem System.Outstanding.carry {s s' : System Req Resp Note} {call? : Option (Call Req)}
    (h : s.Outstanding call?) (hcarries : Carries s s') : s'.Outstanding call? where
  few := hcarries.few.trans h.few
  asked := fun call hmem => h.asked call (hcarries.asked call hmem)
  answered := by
    intro res hmem
    rcases hcarries.answers res hmem with hmem | ⟨call, hmem, hanswered⟩
    · obtain ⟨call, hcall, hanswered⟩ := h.answered res hmem
      obtain ⟨es, hlog, -⟩ := hcarries.log
      exact ⟨call, hcall, hlog ▸ List.mem_append_left _ hanswered⟩
    · exact ⟨call, h.asked call hmem, hanswered⟩

/-- Nothing but the places have changed. -/
theorem Carries.of_places {s s' : System Req Resp Note} (hcaller : s'.caller = s.caller)
    (hnumber : s'.nextRequestId = s.nextRequestId)
    (hfew : s'.asked.length + s'.answers.length ≤ s.asked.length + s.answers.length)
    (hasked : ∀ call ∈ s'.asked, call ∈ s.asked) (hanswers : ∀ res ∈ s'.answers, res ∈ s.answers)
    {es : List (Event Req Resp Note)} (hlog : s'.log = s.log ++ es)
    (hcalled : es.filterMap Event.called? = []) (hreturned : es.filterMap Event.returned? = []) :
    Carries s s' where
  caller := hcaller
  number := hnumber
  few := hfew
  asked := hasked
  answers := fun res hmem => .inl (hanswers res hmem)
  log := ⟨es, hlog, hcalled, hreturned⟩

theorem Carries.refl (s : System Req Resp Note) : Carries s s :=
  .of_places rfl rfl le_rfl (fun _ => id) (fun _ => id) (List.append_nil _).symm rfl rfl

theorem bridge_carries (s : System Req Resp Note) : Carries s s.bridge := by
  simp only [System.bridge]
  split
  · exact .refl s
  · next call requests hrequests =>
      refine .of_places rfl rfl ?_ ?_ (fun _ => id) (List.append_nil _).symm rfl rfl
      · simp [System.asked, System.answers, hrequests]
        omega
      · intro call' hmem
        simp only [System.asked, hrequests, List.mem_append, List.mem_cons] at hmem ⊢
        tauto

theorem connect_carries (s : System Req Resp Note) (success : Bool) :
    Carries s (s.connect success) := by
  simp only [System.connect]
  split
  · split
    · refine .of_places rfl rfl ?_ (fun _ => id) ?_ rfl rfl rfl
      · simp [System.asked, System.answers, System.emit, List.filterMap_cons, WrappedResponse.res?]
      · simp [System.answers, System.emit, List.filterMap_cons, WrappedResponse.res?]
    · exact .of_places rfl rfl le_rfl (fun _ => id) (fun _ => id) (List.append_nil _).symm rfl rfl
  · exact .refl s

theorem send_carries (s : System Req Resp Note) (taken : Bool) : Carries s (s.send taken) := by
  simp only [System.send]
  split
  · next call requestsAsync _ hrequests =>
      refine .of_places rfl rfl ?_ ?_ (fun _ => id) (List.append_nil _).symm rfl rfl
      · cases taken with
        | true =>
            simp [System.asked, System.answers, hrequests]
            omega
        | false => simp [System.asked, System.answers, hrequests]
      · intro call' hmem
        cases taken with
        | true =>
            simp only [System.asked, hrequests, List.mem_append, List.mem_cons, if_true] at hmem ⊢
            tauto
        | false =>
            simp only [System.asked, hrequests, List.mem_append, List.mem_cons, Bool.false_eq_true,
              if_false] at hmem ⊢
            tauto
  · exact .refl s

theorem serve_carries (s : System Req Resp Note) : Carries s s.serve := by
  simp only [System.serve]
  split
  · exact .refl s
  · next call sent hsent =>
      refine .of_places rfl rfl ?_ ?_ (fun _ => id) rfl rfl rfl
      · simp [System.asked, System.answers, System.emit, hsent]
        omega
      · intro call' hmem
        simp only [System.asked, System.emit, hsent, List.mem_append, List.mem_cons] at hmem ⊢
        tauto

theorem answer_carries (s : System Req Resp Note) (index : Nat) (res : Resp) :
    Carries s (s.answer index res) := by
  simp only [System.answer]
  split
  · exact .refl s
  · next call hcall =>
      have hlt : index < s.working.length := (List.getElem?_eq_some_iff.mp hcall).1
      have hlength := List.length_eraseIdx_of_lt hlt
      refine ⟨rfl, rfl, ?_, ?_, ?_, ⟨_, rfl, rfl, rfl⟩⟩
      · simp [System.asked, System.answers, System.emit, hlength, ResponseMessage.res?]
        omega
      · intro call' hmem
        simp only [System.asked, System.emit, List.mem_append] at hmem ⊢
        exact hmem.imp_right fun hmem => List.eraseIdx_subset hmem
      · intro res' hmem
        simp only [System.answers, System.emit, List.filterMap_append, List.mem_append] at hmem
        rcases hmem with ((hmem | hmem) | hmem) | hmem
        · exact .inl (List.mem_append_left _ (List.mem_append_left _ hmem))
        · cases List.mem_singleton.mp hmem
          exact .inr ⟨call, List.mem_append_right _ (List.mem_of_getElem? hcall),
            List.mem_append_right _ List.mem_cons_self⟩
        · exact .inl (List.mem_append_left _ (List.mem_append_right _ hmem))
        · exact .inl (List.mem_append_right _ hmem)

theorem notify_carries (s : System Req Resp Note) (msg : Note) : Carries s (s.notify msg) := by
  simp only [System.notify]
  split
  · refine .of_places rfl rfl ?_ (fun _ => id) ?_ rfl rfl rfl
    · simp [System.asked, System.answers, System.emit, List.filterMap_cons, ResponseMessage.res?]
    · simp [System.answers, System.emit, List.filterMap_cons, ResponseMessage.res?]
  · exact .refl s

theorem garble_carries (s : System Req Resp Note) : Carries s s.garble := by
  simp only [System.garble]
  split
  · refine .of_places rfl rfl ?_ (fun _ => id) ?_ (List.append_nil _).symm rfl rfl
    · simp [System.asked, System.answers]
    · simp [System.answers]
  · exact .refl s

theorem next_carries (s : System Req Resp Note) : Carries s s.next := by
  simp only [System.next]
  split
  · next msg received _ hreceived =>
      refine .of_places rfl rfl ?_ (fun _ => id) ?_ (List.append_nil _).symm rfl rfl
      · cases hres : msg.res? <;>
          simp [System.asked, System.answers, hreceived, WrappedResponse.res?, hres]
        omega
      · intro res hmem
        cases hres : msg.res? with
        | none =>
            simpa [System.answers, hreceived, List.filterMap_cons, WrappedResponse.res?, hres]
              using hmem
        | some res' =>
            simp only [System.answers, hreceived, List.filterMap_cons, List.filterMap_append,
              List.filterMap_nil, WrappedResponse.res?, Option.bind_some, hres, List.mem_append,
              List.mem_cons] at hmem ⊢
            tauto
  · next received _ hreceived =>
      refine .of_places rfl rfl ?_ (fun _ => id) ?_ (List.append_nil _).symm rfl rfl
      · simp [System.asked, System.answers, hreceived]
      · simp [System.answers, hreceived]
  · exact .refl s

theorem fail_carries (s : System Req Resp Note) : Carries s s.fail := by
  simp only [System.fail]
  split
  · refine .of_places rfl rfl ?_ ?_ ?_ rfl rfl rfl
    · simp [System.asked, System.answers, System.emit, List.filterMap_cons, WrappedResponse.res?]
      omega
    · intro call hmem
      simp only [System.asked, System.emit, List.mem_append, List.not_mem_nil, or_false] at hmem ⊢
      tauto
    · intro res hmem
      simp only [System.answers, System.emit, List.filterMap_nil, List.filterMap_append,
        List.filterMap_cons, WrappedResponse.res?, List.mem_append, List.not_mem_nil, or_false,
        false_or] at hmem ⊢
      tauto
  · exact .refl s

theorem endOfStream_carries (s : System Req Resp Note) : Carries s s.endOfStream := by
  simp only [System.endOfStream]
  split
  · refine .of_places rfl rfl ?_ ?_ ?_ (List.append_nil _).symm rfl rfl
    · simp [System.asked, System.answers]
      omega
    · intro call hmem
      simp only [System.asked, List.mem_append, List.not_mem_nil, or_false] at hmem ⊢
      tauto
    · intro res hmem
      simp only [System.answers, List.filterMap_nil, List.mem_append, List.not_mem_nil,
        false_or] at hmem ⊢
      tauto
  · exact .refl s

theorem forward_carries (s : System Req Resp Note) : Carries s s.forward := by
  have hmsg : ∀ {wrapped : WrappedResponse Resp Note} {responses},
      s.responses = wrapped :: responses → wrapped.res? = none → ∀ msgs,
      Carries s { s with responses, msgs } := by
    intro wrapped responses hresponses hnone msgs
    refine .of_places rfl rfl ?_ (fun _ => id) ?_ (List.append_nil _).symm rfl rfl
    · simp [System.asked, System.answers, hresponses, hnone]
    · simp [System.answers, hresponses, hnone]
  simp only [System.forward]
  split
  · exact .refl s
  · next hresponses => exact hmsg hresponses rfl _
  · next hresponses => exact hmsg hresponses rfl _
  · next requestId res responses hresponses =>
      refine .of_places rfl rfl ?_ (fun _ => id) ?_ (List.append_nil _).symm rfl rfl
      · simp [System.asked, System.answers, hresponses, WrappedResponse.res?, ResponseMessage.res?]
        omega
      · intro res' hmem
        simp only [System.answers, hresponses, List.filterMap_cons, WrappedResponse.res?,
          ResponseMessage.res?, List.mem_append, List.mem_cons] at hmem ⊢
        tauto
  · next hresponses => exact hmsg hresponses rfl _

theorem take_carries (s : System Req Resp Note) : Carries s s.take := by
  simp only [System.take]
  split
  · exact .of_places rfl rfl le_rfl (fun _ => id) (fun _ => id) rfl rfl rfl
  · exact .refl s

/-- A response is read for the call that it answers. -/
def Answers (before : List (Event Req Resp Note)) : Event Req Resp Note → Prop
  | .returned call res => .called call ∈ before ∧ .answered call res ∈ before
  | _ => True

/-- The dealer has read the answers to all its calls but the last. -/
structure System.Inv (s : System Req Resp Note) : Prop where
  outstanding : s.caller ≠ .panicked → s.Outstanding s.caller.call?
  calls : ∃ last, s.log.filterMap Event.called? =
      (s.log.filterMap Event.returned?).map Prod.fst ++ last ∧ last.length ≤ 1 ∧
    (s.caller ≠ .panicked → last = s.caller.call?.toList)
  numbers : ∀ call ∈ s.log.filterMap Event.called?, call.requestId < s.nextRequestId
  distinct : ((s.log.filterMap Event.called?).map Call.requestId).Pairwise (· < ·)
  answers : Justified Answers s.log

theorem System.Inv.carry {s s' : System Req Resp Note} (h : s.Inv) (hcarries : Carries s s') :
    s'.Inv := by
  obtain ⟨es, hlog, hcalled, hreturned⟩ := hcarries.log
  have hcalls : s'.log.filterMap Event.called? = s.log.filterMap Event.called? := by
    rw [hlog, List.filterMap_append, hcalled, List.append_nil]
  have hreturns : s'.log.filterMap Event.returned? = s.log.filterMap Event.returned? := by
    rw [hlog, List.filterMap_append, hreturned, List.append_nil]
  constructor
  · intro hcaller
    rw [hcarries.caller] at hcaller ⊢
    exact (h.outstanding hcaller).carry hcarries
  · rw [hcalls, hreturns, hcarries.caller]
    exact h.calls
  · rw [hcalls, hcarries.number]
    exact h.numbers
  · rw [hcalls]
    exact h.distinct
  · rw [hlog]
    refine h.answers.append fun n e he => ?_
    have hnone := List.filterMap_eq_nil_iff.mp hreturned e (List.mem_of_getElem? he)
    cases e with
    | returned call res => cases hnone
    | _ => trivial

/-- A call is made when nothing is on the way. -/
theorem call_inv {s : System Req Resp Note} (h : s.Inv) (req : Req) : (s.call req).Inv := by
  simp only [System.call]
  split
  · next hcaller =>
      have hgoes : s.caller ≠ .panicked := by simp [hcaller]
      have hout := h.outstanding hgoes
      rw [hcaller] at hout
      have hfew := hout.few
      simp only [Caller.call?, Option.toList_none, List.length_nil, Nat.le_zero,
        Nat.add_eq_zero_iff, List.length_eq_zero_iff] at hfew
      obtain ⟨hasked, hanswers⟩ := hfew
      obtain ⟨last, hcalls, -, hlast⟩ := h.calls
      have hlast := hlast hgoes
      rw [hcaller] at hlast
      subst hlast
      constructor
      · intro _
        simp only [System.asked, List.append_eq_nil_iff] at hasked
        constructor
        · simp only [System.answers] at hanswers
          simp [System.asked, System.answers, System.emit, Caller.call?, hasked, hanswers]
        · intro call hmem
          simp only [System.asked, System.emit, hasked, List.nil_append, List.append_nil,
            List.mem_singleton] at hmem
          rw [hmem]
          rfl
        · intro res hmem
          exact absurd (hanswers ▸ hmem) List.not_mem_nil
      · refine ⟨[⟨s.nextRequestId, req⟩], ?_, le_rfl, fun _ => rfl⟩
        simpa [System.emit, List.filterMap_cons, Event.called?, Event.returned?, Caller.call?]
          using hcalls
      · intro call hmem
        simp only [System.emit, List.filterMap_append, List.mem_append] at hmem
        rcases hmem with hmem | hmem
        · exact Nat.lt_succ_of_lt (h.numbers call hmem)
        · cases List.mem_singleton.mp hmem
          exact Nat.lt_succ_self _
      · simp only [System.emit, List.filterMap_append, List.map_append]
        refine List.pairwise_append.mpr ⟨h.distinct, List.pairwise_singleton _ _, ?_⟩
        intro a ha b hb
        obtain ⟨call, hmem, rfl⟩ := List.mem_map.mp ha
        cases List.mem_singleton.mp hb
        exact h.numbers call hmem
      · exact h.answers.concat trivial
  · exact h

/-- What is read is the answer, and then nothing is on the way. -/
theorem receive_inv {s : System Req Resp Note} (h : s.Inv) : s.receive.Inv := by
  simp only [System.receive]
  split
  · next call res replies hcaller hreplies =>
      have hgoes : s.caller ≠ .panicked := by simp [hcaller]
      have hout := h.outstanding hgoes
      rw [hcaller] at hout
      have hfew := hout.few
      obtain ⟨last, hcalls, -, hlast⟩ := h.calls
      have hlast := hlast hgoes
      rw [hcaller] at hlast
      subst hlast
      have hanswered : Event.answered call res ∈ s.log := by
        obtain ⟨call', hcall, hanswered⟩ := hout.answered res (by simp [System.answers, hreplies])
        cases hcall
        exact hanswered
      have hcalled : Event.called call ∈ s.log := by
        have hmem : call ∈ s.log.filterMap Event.called? := by
          rw [hcalls]
          exact List.mem_append_right _ List.mem_cons_self
        obtain ⟨e, hmem, he⟩ := List.mem_filterMap.mp hmem
        cases e with
        | called call' =>
            cases he
            exact hmem
        | _ => cases he
      simp only [System.asked, System.answers, hreplies, Caller.call?, Option.toList_some,
        List.length_append, List.length_cons, List.length_nil] at hfew
      constructor
      · intro _
        refine ⟨?_, ?_, ?_⟩
        · simp only [System.asked, System.answers, System.emit, Caller.call?, Option.toList_none,
            List.length_append, List.length_nil]
          omega
        · intro call' hmem
          have hpos := List.length_pos_of_mem hmem
          simp only [System.asked, System.emit, List.length_append] at hpos
          omega
        · intro res' hmem
          have hpos := List.length_pos_of_mem hmem
          simp only [System.answers, System.emit, List.length_append] at hpos
          omega
      · refine ⟨[], ?_, Nat.zero_le _, fun _ => rfl⟩
        simpa [System.emit, List.filterMap_cons, Event.called?, Event.returned?, Caller.call?]
          using hcalls
      · simpa [System.emit, List.filterMap_cons, Event.called?] using h.numbers
      · simpa [System.emit, List.filterMap_cons, Event.called?] using h.distinct
      · exact h.answers.concat ⟨hcalled, hanswered⟩
  · exact h

theorem timeout_inv {s : System Req Resp Note} (h : s.Inv) : s.timeout.Inv := by
  simp only [System.timeout]
  split
  · obtain ⟨last, hcalls, hone, -⟩ := h.calls
    refine ⟨fun hgoes => absurd rfl hgoes, ⟨last, hcalls, hone, fun hgoes => absurd rfl hgoes⟩,
      h.numbers, h.distinct, h.answers⟩
  · exact h

/-- **ONE MOVE** of any party. -/
theorem step_inv {s : System Req Resp Note} (h : s.Inv) (i : Input Req Resp Note) :
    (step s i).Inv := by
  cases i with
  | call req => exact call_inv h req
  | bridge => exact h.carry (bridge_carries s)
  | connect success => exact h.carry (connect_carries s success)
  | send taken => exact h.carry (send_carries s taken)
  | serve => exact h.carry (serve_carries s)
  | answer index res => exact h.carry (answer_carries s index res)
  | notify msg => exact h.carry (notify_carries s msg)
  | garble => exact h.carry (garble_carries s)
  | next => exact h.carry (next_carries s)
  | fail => exact h.carry (fail_carries s)
  | endOfStream => exact h.carry (endOfStream_carries s)
  | forward => exact h.carry (forward_carries s)
  | receive => exact receive_inv h
  | timeout => exact timeout_inv h
  | take => exact h.carry (take_carries s)

theorem first_inv : (first : System Req Resp Note).Inv where
  outstanding := by
    intro _
    constructor
    · exact le_rfl
    · exact fun _ hmem => absurd hmem List.not_mem_nil
    · exact fun _ hmem => absurd hmem List.not_mem_nil
  calls := ⟨[], rfl, Nat.zero_le _, fun _ => rfl⟩
  numbers := fun _ hmem => absurd hmem List.not_mem_nil
  distinct := .nil
  answers := justified_nil _

/-- **EACH CALL HAS ITS OWN ANSWER**: in whatever order the parties move, and whatever gets lost,
    a response is read for the very call that the server answered with it; the calls have
    different ids, and all but the last have been answered, once each and in their order. -/
theorem calls_answered {s : System Req Resp Note} (h : Runs s) :
    Justified Answers s.log ∧
      ((s.log.filterMap Event.called?).map Call.requestId).Pairwise (· < ·) ∧
      ∃ last, s.log.filterMap Event.called? =
          (s.log.filterMap Event.returned?).map Prod.fst ++ last ∧ last.length ≤ 1 ∧
        (s.caller = .free → last = []) := by
  have hinv : s.Inv := by
    refine h.invariant ?_ ?_
    · rintro s rfl
      exact first_inv
    · intro s i _ hinv _
      exact step_inv hinv i
  obtain ⟨last, hcalls, hone, hlast⟩ := hinv.calls
  refine ⟨hinv.answers, hinv.distinct, last, hcalls, hone, ?_⟩
  intro hfree
  rw [hlast (by simp [hfree]), hfree]
  rfl

end Calls

/-! ## One connection after the other -/

section Sessions

variable {Req Resp Note : Type}

/-- The notifications of the connections that are over, and of the present one. -/
structure Sessions (Note : Type) where
  past : List (List Note)
  present : Option (List Note)

def Sessions.record (ss : Sessions Note) : Event Req Resp Note → Sessions Note
  | .opened => { ss with present := some [] }
  | .notified msg => { ss with present := ss.present.map (· ++ [msg]) }
  | .closed => ⟨ss.past ++ ss.present.toList, none⟩
  | _ => ss

/-- The sessions of a history. -/
def sessions (log : List (Event Req Resp Note)) : Sessions Note :=
  log.foldl Sessions.record ⟨[], none⟩

theorem sessions_concat (log : List (Event Req Resp Note)) (e : Event Req Resp Note) :
    sessions (log ++ [e]) = (sessions log).record e := by
  simp [sessions]

def Event.taken? : Event Req Resp Note → Option (Msg Note)
  | .taken msg => some msg
  | _ => none

/-- What `msg_rx` gets. -/
def WrappedResponse.msg? : WrappedResponse Resp Note → Option (Msg Note)
  | .connected => some .connected
  | .disconnected => some .disconnected
  | .response (.response _ _) => none
  | .response (.notification msg) => some (.notification msg)

def ResponseMessage.note? : ResponseMessage Resp Note → Option Note
  | .response _ _ => none
  | .notification msg => some msg

/-- What is heard of the connections that are over. -/
def transcript (heard : List (List Note)) : List (Msg Note) :=
  heard.flatMap fun notes => .connected :: notes.map .notification ++ [.disconnected]

/-- What is heard of the present connection. -/
def begun : Option (List Note) → List (Msg Note)
  | none => []
  | some notes => .connected :: notes.map .notification

theorem transcript_concat (heard : List (List Note)) (notes : List Note) :
    transcript (heard ++ [notes]) = transcript heard ++ begun (some notes) ++ [.disconnected] := by
  simp [transcript, begun]

/-- The messages that were taken, or wait. -/
def System.stream (s : System Req Resp Note) : List (Msg Note) :=
  s.log.filterMap Event.taken? ++ s.msgs ++ s.responses.filterMap WrappedResponse.msg?

/-- The notifications that are on the way. -/
def System.notes (s : System Req Resp Note) : List Note :=
  s.received.filterMap fun text => text.bind ResponseMessage.note?

/-- What the socket thread has heard of the present connection. -/
inductive Hearing : List Note → Socket → Option (List Note) → Option (List Note) → Prop where
  | connecting {reconnectCount} : Hearing [] (.connecting reconnectCount) none none
  | connected {waiting notes} : Hearing waiting .connected (some notes) (some (notes ++ waiting))
  | panicked {notes all} : notes <+: all → Hearing [] .panicked (some notes) (some all)

theorem Hearing.of_connecting {waiting : List Note} {reconnectCount : Nat}
    {now present : Option (List Note)}
    (h : Hearing waiting (.connecting reconnectCount) now present) :
    waiting = [] ∧ now = none ∧ present = none := by
  cases h
  exact ⟨rfl, rfl, rfl⟩

theorem Hearing.of_connected {waiting : List Note} {now present : Option (List Note)}
    (h : Hearing waiting .connected now present) :
    ∃ notes, now = some notes ∧ present = some (notes ++ waiting) := by
  cases h
  exact ⟨_, rfl, rfl⟩

theorem Hearing.isPrefix {waiting : List Note} {socket : Socket} {now present : Option (List Note)}
    (h : Hearing waiting socket now present) : Option.Rel (· <+: ·) now present := by
  cases h with
  | connecting => exact .none
  | connected => exact .some (List.prefix_append _ _)
  | panicked hprefix => exact .some hprefix

/-- Of each connection the dealer hears a beginning, and its end before the next one. -/
def System.Follows (s : System Req Resp Note) : Prop :=
  ∃ heard now, List.Forall₂ (· <+: ·) heard (sessions s.log).past ∧
    Hearing s.notes s.socket now (sessions s.log).present ∧
    s.stream = transcript heard ++ begun now

/-- What does not concern the connection. -/
theorem System.Follows.same {s s' : System Req Resp Note} (h : s.Follows)
    (hsocket : s'.socket = s.socket) (hnotes : s'.notes = s.notes) (hstream : s'.stream = s.stream)
    (hsessions : sessions s'.log = sessions s.log) : s'.Follows := by
  obtain ⟨heard, now, hheard, hnow, heq⟩ := h
  refine ⟨heard, now, ?_, ?_, hstream.trans heq⟩
  · rw [hsessions]
    exact hheard
  · rw [hsocket, hnotes, hsessions]
    exact hnow

theorem call_follows {s : System Req Resp Note} (h : s.Follows) (req : Req) :
    (s.call req).Follows := by
  simp only [System.call]
  split
  · refine h.same rfl rfl ?_ (sessions_concat _ _)
    simp [System.stream, System.emit, List.filterMap_cons, Event.taken?]
  · exact h

theorem connect_follows {s : System Req Resp Note} (h : s.Follows) (success : Bool) :
    (s.connect success).Follows := by
  obtain ⟨heard, now, hheard, hnow, hstream⟩ := h
  simp only [System.connect]
  split
  · next reconnectCount hsocket =>
      rw [hsocket] at hnow
      obtain ⟨hnotes, rfl, hpresent⟩ := hnow.of_connecting
      split
      · refine ⟨heard, some [], ?_, ?_, ?_⟩
        · simpa [System.emit, sessions_concat, Sessions.record] using hheard
        · have hnone : System.notes { s.emit .opened with
              socket := .connected, responses := s.responses ++ [.connected] } = [] := hnotes
          simp only [System.emit, sessions_concat, Sessions.record] at hnone ⊢
          rw [hnone]
          exact .connected
        · simp only [System.stream, begun, List.append_nil] at hstream
          simp [System.stream, System.emit, List.filterMap_cons, Event.taken?,
            WrappedResponse.msg?, begun, ← hstream]
      · refine ⟨heard, none, hheard, ?_, hstream⟩
        have hnone : System.notes { s with socket := .connecting (reconnectCount + 1) } = [] := hnotes
        rw [hnone, hpresent]
        exact .connecting
  · exact ⟨heard, now, hheard, hnow, hstream⟩

theorem send_follows {s : System Req Resp Note} (h : s.Follows) (taken : Bool) :
    (s.send taken).Follows := by
  simp only [System.send]
  split
  · exact h.same rfl rfl rfl rfl
  · exact h

theorem serve_follows {s : System Req Resp Note} (h : s.Follows) : s.serve.Follows := by
  simp only [System.serve]
  split
  · exact h
  · refine h.same rfl rfl ?_ (sessions_concat _ _)
    simp [System.stream, System.emit, List.filterMap_cons, Event.taken?]

theorem answer_follows {s : System Req Resp Note} (h : s.Follows) (index : Nat) (res : Resp) :
    (s.answer index res).Follows := by
  simp only [System.answer]
  split
  · exact h
  · refine h.same rfl ?_ ?_ (sessions_concat _ _)
    · simp [System.notes, List.filterMap_cons, ResponseMessage.note?]
    · simp [System.stream, System.emit, List.filterMap_cons, Event.taken?]

theorem notify_follows {s : System Req Resp Note} (h : s.Follows) (msg : Note) :
    (s.notify msg).Follows := by
  simp only [System.notify]
  split
  · next hsocket =>
      obtain ⟨heard, now, hheard, hnow, hstream⟩ := h
      rw [hsocket] at hnow
      obtain ⟨notes, rfl, hpresent⟩ := hnow.of_connected
      refine ⟨heard, some notes, ?_, ?_, ?_⟩
      · simpa [System.emit, sessions_concat, Sessions.record] using hheard
      · have hmore : System.notes { s.emit (.notified msg) with
            received := s.received ++ [some (.notification msg)] } = s.notes ++ [msg] := by
          simp [System.notes, ResponseMessage.note?]
        simp only [System.emit, sessions_concat, Sessions.record, hpresent, Option.map_some]
          at hmore ⊢
        rw [hmore, hsocket, List.append_assoc]
        exact .connected
      · rw [← hstream]
        simp [System.stream, System.emit, List.filterMap_cons, Event.taken?]
  · exact h

theorem garble_follows {s : System Req Resp Note} (h : s.Follows) : s.garble.Follows := by
  simp only [System.garble]
  split
  · refine h.same rfl ?_ rfl rfl
    simp [System.notes]
  · exact h

/-- What has arrived is passed on. -/
theorem next_follows {s : System Req Resp Note} (h : s.Follows) : s.next.Follows := by
  simp only [System.next]
  split
  · next msg received hsocket hreceived =>
      cases msg with
      | response requestId res =>
          refine h.same rfl ?_ ?_ rfl
          · simp [System.notes, hreceived, List.filterMap_cons, ResponseMessage.note?]
          · simp [System.stream, List.filterMap_cons, WrappedResponse.msg?]
      | notification note =>
          obtain ⟨heard, now, hheard, hnow, hstream⟩ := h
          have hnotes : s.notes = note :: received.filterMap fun text =>
              text.bind ResponseMessage.note? := by
            simp [System.notes, hreceived, ResponseMessage.note?]
          rw [hsocket, hnotes] at hnow
          obtain ⟨notes, rfl, hpresent⟩ := hnow.of_connected
          rw [List.append_cons] at hpresent
          refine ⟨heard, some (notes ++ [note]), hheard, ?_, ?_⟩
          · rw [hpresent, hsocket]
            exact .connected
          · simp only [System.stream, begun] at hstream ⊢
            rw [List.filterMap_append, ← List.append_assoc, hstream]
            simp [WrappedResponse.msg?]
  · next received hsocket hreceived =>
      refine h.same rfl ?_ rfl rfl
      simp [System.notes, hreceived]
  · exact h

/-- What was not passed on is lost with the connection. -/
theorem fail_follows {s : System Req Resp Note} (h : s.Follows) : s.fail.Follows := by
  simp only [System.fail]
  split
  · next hsocket =>
      obtain ⟨heard, now, hheard, hnow, hstream⟩ := h
      rw [hsocket] at hnow
      obtain ⟨notes, rfl, hpresent⟩ := hnow.of_connected
      refine ⟨heard ++ [notes], none, ?_, ?_, ?_⟩
      · simp only [System.emit, sessions_concat, Sessions.record, hpresent, Option.toList_some]
        exact List.rel_append hheard (.cons (List.prefix_append _ _) .nil)
      · simp only [System.emit, sessions_concat, Sessions.record]
        exact .connecting
      · rw [transcript_concat, ← hstream]
        simp [System.stream, System.emit, List.filterMap_cons, Event.taken?,
          WrappedResponse.msg?, begun]
  · exact h

theorem endOfStream_follows {s : System Req Resp Note} (h : s.Follows) :
    s.endOfStream.Follows := by
  simp only [System.endOfStream]
  split
  · next hsocket =>
      obtain ⟨heard, now, hheard, hnow, hstream⟩ := h
      rw [hsocket] at hnow
      obtain ⟨notes, rfl, hpresent⟩ := hnow.of_connected
      refine ⟨heard, some notes, hheard, ?_, hstream⟩
      rw [hpresent]
      exact .panicked (List.prefix_append _ _)
  · exact h

theorem forward_follows {s : System Req Resp Note} (h : s.Follows) : s.forward.Follows := by
  simp only [System.forward]
  split
  · exact h
  · next hresponses =>
      refine h.same rfl rfl ?_ rfl
      simp [System.stream, hresponses, WrappedResponse.msg?]
  · next hresponses =>
      refine h.same rfl rfl ?_ rfl
      simp [System.stream, hresponses, WrappedResponse.msg?]
  · next hresponses =>
      refine h.same rfl rfl ?_ rfl
      simp [System.stream, hresponses, List.filterMap_cons, WrappedResponse.msg?]
  · next hresponses =>
      refine h.same rfl rfl ?_ rfl
      simp [System.stream, hresponses, WrappedResponse.msg?]

theorem receive_follows {s : System Req Resp Note} (h : s.Follows) : s.receive.Follows := by
  simp only [System.receive]
  split
  · refine h.same rfl rfl ?_ (sessions_concat _ _)
    simp [System.stream, System.emit, List.filterMap_cons, Event.taken?]
  · exact h

theorem take_follows {s : System Req Resp Note} (h : s.Follows) : s.take.Follows := by
  simp only [System.take]
  split
  · next msg msgs _ hmsgs =>
      refine h.same rfl rfl ?_ (sessions_concat _ _)
      simp [System.stream, System.emit, hmsgs, Event.taken?]
  · exact h

theorem step_follows {s : System Req Resp Note} (h : s.Follows) (i : Input Req Resp Note) :
    (step s i).Follows := by
  cases i with
  | call req => exact call_follows h req
  | bridge =>
      simp only [step, System.bridge]
      split
      · exact h
      · exact h.same rfl rfl rfl rfl
  | connect success => exact connect_follows h success
  | send taken => exact send_follows h taken
  | serve => exact serve_follows h
  | answer index res => exact answer_follows h index res
  | notify msg => exact notify_follows h msg
  | garble => exact garble_follows h
  | next => exact next_follows h
  | fail => exact fail_follows h
  | endOfStream => exact endOfStream_follows h
  | forward => exact forward_follows h
  | receive => exact receive_follows h
  | timeout =>
      simp only [step, System.timeout]
      split
      · exact h.same rfl rfl rfl rfl
      · exact h
  | take => exact take_follows h

/-- **ONE CONNECTION AFTER THE OTHER**: what the dealer takes are the connections in their order,
    each with its beginning, the first of the notifications that the server has sent on it,
    without a gap, and its end before the next one begins. -/
theorem sessions_in_order {s : System Req Resp Note} (h : Runs s) :
    ∃ heard now, List.Forall₂ (· <+: ·) heard (sessions s.log).past ∧
      Option.Rel (· <+: ·) now (sessions s.log).present ∧
      s.log.filterMap Event.taken? <+: transcript heard ++ begun now := by
  have hfollows : s.Follows := by
    refine h.invariant ?_ ?_
    · rintro s rfl
      exact ⟨[], none, .nil, .connecting, rfl⟩
    · intro s i _ hfollows _
      exact step_follows hfollows i
  obtain ⟨heard, now, hheard, hnow, hstream⟩ := hfollows
  refine ⟨heard, now, hheard, hnow.isPrefix, ?_⟩
  rw [← hstream, System.stream, List.append_assoc]
  exact List.prefix_append _ _

end Sessions

namespace Sample

open OrderDealer (TradeRequest TradeResponse)

/-- The parties of the order dealer. -/
abbrev DealerSystem := System TradeRequest (Except String TradeResponse) Api.OrderCreatedNotification

def order : Api.OrderCreatedNotification :=
  ⟨9, ⟨2, 10000000, 310000000000, 30969, 10000, .taker, true, .bitcoin, .stablecoin, none⟩, 0,
    none, false, none⟩

/-- The first connection is lost before the second request has left. -/
def inputs : List (Input TradeRequest (Except String TradeResponse) Api.OrderCreatedNotification) :=
  [.connect true, .forward, .take, .call .assets, .bridge, .send true, .serve, .notify order,
    .answer 0 (.ok (.assets [])), .next, .next, .forward, .forward, .receive, .take,
    .call .login, .bridge, .fail, .connect false, .connect true, .send true, .serve,
    .answer 0 (.error "not ready"), .next, .forward, .forward, .forward, .receive, .take]

end Sample

/-- The second answer comes on the second connection. -/
theorem login_answered :
    let s : Sample.DealerSystem := run step first Sample.inputs
    (s.log.filterMap Event.returned?).map (fun answer => answer.1.requestId) = [1, 2] ∧
      ∃ last, s.log.filterMap Event.called? =
          (s.log.filterMap Event.returned?).map Prod.fst ++ last ∧ last.length ≤ 1 ∧
        (s.caller = .free → last = []) := by
  have hstart : Runs (first : Sample.DealerSystem) := .start rfl
  refine ⟨by decide +kernel, (calls_answered (hstart.run Sample.inputs ?_)).2.2⟩
  decide +kernel

/-- The dealer hears that the first connection is over. -/
theorem loss_noticed :
    let s : Sample.DealerSystem := run step first Sample.inputs
    (s.log.filterMap Event.taken?).length = 3 ∧
      ∃ heard now, List.Forall₂ (· <+: ·) heard (sessions s.log).past ∧
        Option.Rel (· <+: ·) now (sessions s.log).present ∧
        s.log.filterMap Event.taken? <+: transcript heard ++ begun now := by
  have hstart : Runs (first : Sample.DealerSystem) := .start rfl
  refine ⟨by decide +kernel, sessions_in_order (hstart.run Sample.inputs ?_)⟩
  decide +kernel

end ServerCalls
