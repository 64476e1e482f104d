import SideSwap.DealerQueues

/-! # The server of prices

    `sideswap_dealer_ws` runs the order dealer behind a socket.  A client that
    knows the secret sends the dealer its messages and hears what the dealer
    reports.  When such a client leaves, the prices are reset: the dealer is to
    trade only at the prices of clients that are still there.

    Clients come, talk and leave in any order, while the dealer works and its
    reports go out.  A connection has one task that reads and one that writes. -/

namespace PriceServer

open Api Program Pricing Transition History Relation
open OrderDealer (DealerTicker PricePair To From TradeMsg TradeEvent TradeWorld TradeParams Trading
  tell toldOf takenTolds told_last dealer_told takenTolds_receipts receipts_trade trade_grows)

/-! ## The server -/

/-- The settings, with the outside of the process and the reading of JSON. -/
structure Setup where
  market : TradeWorld
  params : TradeParams
  wsSecret : String
  bitcoinAmountMax : Double
  /-- the secret of a text that is a `StartRequest` -/
  parseStart : String → Option String
  /-- `parse_message` -/
  parseMessage : String → Except String To

/-- What `stream.next()` returns. -/
inductive Frame where
  /-- a text or binary message -/
  | data (text : String)
  /-- any other message -/
  | control
  /-- an error, or the end of the stream -/
  | closed

/-- What is written to a client. -/
inductive Outgoing where
  | report (msg : From)
  | error (text : String)
deriving DecidableEq

/-- Where `handle_connection` is. -/
inductive Stage where
  | starting
  | reading
  | finished
deriving DecidableEq

/-- A connection: `waiting` is the channel of the task that writes. -/
structure Connection where
  stage : Stage
  waiting : List Outgoing
  written : List Outgoing
  /-- the task that writes still does -/
  writing : Bool
deriving DecidableEq

/-- What the server has done. -/
inductive Event where
  | authorized (peer : Nat)
  | told (peer : Nat) (msg : To)
  | left (peer : Nat)
  | broadcast (msg : From)
deriving DecidableEq

/-- The server: `sinks` are the clients that hear the reports. -/
structure Server where
  connections : Nat → Option Connection
  sinks : List Nat
  dealer : Trading
  toDealer : List To
  fromDealer : List From
  log : List Event

inductive Input where
  | accept (peer : Nat)
  | frame (peer : Nat) (frame : Frame)
  /-- the task that writes takes the next message; the socket takes it or fails -/
  | write (peer : Nat) (ok : Bool)
  /-- `main` takes a report of the dealer -/
  | broadcast
  /-- a message from outside to the dealer -/
  | dealer (msg : TradeMsg)
  | dealerTakes

def Server.set (s : Server) (peer : Nat) (c : Connection) : Server :=
  { s with connections := Function.update s.connections peer (some c) }

/-- A client is let in: the task that writes is started. -/
def Server.authorize (s : Server) (peer : Nat) (c : Connection) : Server :=
  { s.set peer { c with stage := .reading, writing := true } with
    sinks := s.sinks ++ [peer]
    log := s.log ++ [.authorized peer] }

/-- The end of `read_loop`, and what follows it. -/
def Server.leave (s : Server) (peer : Nat) (c : Connection) : Server :=
  { s.set peer { c with stage := .finished } with
    sinks := s.sinks.filter (· ≠ peer)
    toDealer := s.toDealer ++ [.resetPrices]
    log := s.log ++ [.left peer] }

/-- The first message must authorize. -/
def Server.start (setup : Setup) (s : Server) (peer : Nat) (c : Connection) : Frame → Server
  | .data text =>
      if setup.parseStart text = some setup.wsSecret then s.authorize peer c
      else s.set peer { c with stage := .finished }
  | _ => s.set peer { c with stage := .finished }

/-- One turn of `read_loop`; an answer can be sent as long as somebody writes it. -/
def Server.read (setup : Setup) (s : Server) (peer : Nat) (c : Connection) : Frame → Server
  | .data text =>
      match setup.parseMessage text with
      | .ok msg => { s with toDealer := s.toDealer ++ [msg], log := s.log ++ [.told peer msg] }
      | .error text =>
          if c.writing then s.set peer { c with waiting := c.waiting ++ [.error text] }
          else s.leave peer c
  | .control => s
  | .closed => s.leave peer c

/-- `handle_connection` gets a message. -/
def Server.frame (setup : Setup) (s : Server) (peer : Nat) (c : Connection) (frame : Frame) :
    Server :=
  match c.stage with
  | .starting => s.start setup peer c frame
  | .reading => s.read setup peer c frame
  | .finished => s

/-- The task that writes: after a failure its channel is gone. -/
def Connection.write (c : Connection) (ok : Bool) : Connection :=
  match c.writing, c.waiting with
  | true, out :: waiting =>
      if ok then { c with waiting, written := c.written ++ [out] }
      else { c with waiting := [], writing := false }
  | _, _ => c

/-- What a connection hears, if it is one of the sinks and somebody writes. -/
def Connection.hear (c : Connection) (isSink : Bool) (msg : From) : Connection :=
  if isSink && c.writing then { c with waiting := c.waiting ++ [.report msg] } else c

/-- A report goes to all sinks; those whose channel is gone are removed. -/
def Server.broadcast (s : Server) (msg : From) : Server :=
  { s with
    connections := fun peer => (s.connections peer).map fun c =>
      c.hear (decide (peer ∈ s.sinks)) msg
    sinks := s.sinks.filter fun peer => (s.connections peer).any (·.writing)
    log := s.log ++ [.broadcast msg] }

/-- The dealer handles a message. -/
def dealerStep (setup : Setup) (s : Server) (msg : TradeMsg) : Server :=
  let dealer := OrderDealer.trade setup.market setup.params s.dealer msg
  { s with
    dealer
    fromDealer := s.fromDealer ++ news TradeEvent.sent? s.dealer.worker.log dealer.worker.log }

/-- One move of the server; it ends with the dealer. -/
def step (setup : Setup) (s : Server) (i : Input) : Server :=
  if s.dealer.stopped then s
  else match i with
    | .accept peer =>
        if s.connections peer = none then s.set peer ⟨.starting, [], [], false⟩ else s
    | .frame peer frame => (s.connections peer).elim s fun c => s.frame setup peer c frame
    | .write peer ok => (s.connections peer).elim s fun c => s.set peer (c.write ok)
    | .broadcast =>
        match s.fromDealer with
        | [] => s
        | msg :: fromDealer => { s with fromDealer }.broadcast msg
    | .dealer msg => dealerStep setup s msg
    | .dealerTakes =>
        match s.toDealer with
        | [] => s
        | msg :: toDealer => dealerStep setup { s with toDealer } (.msgTo msg)

/-- What `main` tells the dealer before it listens. -/
def Setup.limits (setup : Setup) : List To :=
  [.limitBalance .lbtc true setup.bitcoinAmountMax, .limitBalance .lbtc false setup.bitcoinAmountMax]

def first (setup : Setup) : Server where
  connections := fun _ => none
  sinks := []
  dealer := OrderDealer.firstTrading setup.market
  toDealer := setup.limits
  fromDealer := []
  log := []

/-- The message does not come from a client. -/
def Input.External : Input → Prop
  | .dealer msg => toldOf msg = none
  | _ => True

/-- The states of the server's runs. -/
abbrev Runs (setup : Setup) : Server → Prop :=
  Reach (· = first setup) (step setup) fun _ i => i.External

/-! ## What the history says -/

/-- What the dealer is told. -/
def Event.told? : Event → Option To
  | .told _ msg => some msg
  | .left _ => some .resetPrices
  | _ => none

def Event.broadcast? : Event → Option From
  | .broadcast msg => some msg
  | _ => none

def Outgoing.report? : Outgoing → Option From
  | .report msg => some msg
  | .error _ => none

/-- The client was let in and has not left. -/
def Present (log : List Event) (peer : Nat) : Prop := .authorized peer ∈ log ∧ .left peer ∉ log

/-- A client is let in once, and it speaks and leaves while it is there. -/
def Admitted (before : List Event) : Event → Prop
  | .authorized peer => .authorized peer ∉ before
  | .told peer _ => Present before peer
  | .left peer => Present before peer
  | .broadcast _ => True

/-- What was written to a client or waits for it: the reports since it was let in. -/
def Hears (log : List Event) (peer : Nat) (c : Connection) : Prop :=
  ∃ before after, log = before ++ .authorized peer :: after ∧
    (c.written ++ c.waiting).filterMap Outgoing.report? = after.filterMap Event.broadcast?

/-- The stage of a connection is what the history says. -/
structure Fits (log : List Event) (sinks : List Nat) (peer : Nat) (c : Connection) : Prop where
  fresh : c.stage = .starting →
    .authorized peer ∉ log ∧ c.written = [] ∧ c.waiting = [] ∧ c.writing = false
  present : c.stage = .reading → Present log peer
  gone : c.stage = .finished → ¬ Present log peer
  hears : c.stage = .reading → c.writing = true → peer ∈ sinks ∧ Hears log peer c

section Fits

variable {log : List Event} {sinks : List Nat} {peer : Nat} {c : Connection}

theorem mem_concat_of_ne {e e' : Event} (h : e ≠ e') : e ∈ log ++ [e'] ↔ e ∈ log := by
  simp [h]

theorem present_concat {e : Event} (hin : e ≠ .authorized peer) (hout : e ≠ .left peer) :
    Present (log ++ [e]) peer ↔ Present log peer := by
  simp only [Present, mem_concat_of_ne hin.symm, mem_concat_of_ne hout.symm]

/-- What is written and said in the meantime. -/
theorem Hears.concat {c' : Connection} {e : Event} (h : Hears log peer c)
    (heard : (c'.written ++ c'.waiting).filterMap Outgoing.report? =
      (c.written ++ c.waiting).filterMap Outgoing.report? ++ [e].filterMap Event.broadcast?) :
    Hears (log ++ [e]) peer c' := by
  obtain ⟨before, after, hlog, hheard⟩ := h
  refine ⟨before, after ++ [e], ?_, ?_⟩
  · rw [hlog, List.append_assoc]
    rfl
  · rw [heard, hheard, List.filterMap_append]

/-- An event about somebody else. -/
theorem Fits.concat {sinks' : List Nat} {e : Event} (h : Fits log sinks peer c)
    (hin : e ≠ .authorized peer) (hout : e ≠ .left peer) (hquiet : e.broadcast? = none)
    (hsinks : peer ∈ sinks → peer ∈ sinks') : Fits (log ++ [e]) sinks' peer c where
  fresh := by
    intro hstage
    obtain ⟨hnot, hrest⟩ := h.fresh hstage
    exact ⟨(mem_concat_of_ne hin.symm).not.mpr hnot, hrest⟩
  present := fun hstage => (present_concat hin hout).mpr (h.present hstage)
  gone := fun hstage => (present_concat hin hout).not.mpr (h.gone hstage)
  hears := by
    intro hstage hwriting
    obtain ⟨hmem, hhears⟩ := h.hears hstage hwriting
    refine ⟨hsinks hmem, hhears.concat ?_⟩
    rw [List.filterMap_cons_none hquiet, List.filterMap_nil, List.append_nil]

/-- A report is heard. -/
theorem Fits.broadcast (h : Fits log sinks peer c) (msg : From) {sinks' : List Nat}
    (hsinks : peer ∈ sinks → c.writing = true → peer ∈ sinks') :
    Fits (log ++ [.broadcast msg]) sinks' peer (c.hear (decide (peer ∈ sinks)) msg) := by
  have hstage : (c.hear (decide (peer ∈ sinks)) msg).stage = c.stage := by
    simp only [Connection.hear]
    split
    · rfl
    · rfl
  constructor
  · intro hstarting
    obtain ⟨hnot, hwritten, hwaiting, hwriting⟩ := h.fresh (hstage ▸ hstarting)
    have hsame : c.hear (decide (peer ∈ sinks)) msg = c := by
      simp [Connection.hear, hwriting]
    rw [hsame]
    exact ⟨(mem_concat_of_ne Event.noConfusion).not.mpr hnot, hwritten, hwaiting, hwriting⟩
  · intro hreading
    exact (present_concat Event.noConfusion Event.noConfusion).mpr (h.present (hstage ▸ hreading))
  · intro hfinished
    exact (present_concat Event.noConfusion Event.noConfusion).not.mpr
      (h.gone (hstage ▸ hfinished))
  · intro hreading hwriting
    have hwrites : c.writing = true := by
      simp only [Connection.hear] at hwriting
      split at hwriting
      · exact hwriting
      · exact hwriting
    obtain ⟨hmem, hhears⟩ := h.hears (hstage ▸ hreading) hwrites
    refine ⟨hsinks hmem hwrites, hhears.concat ?_⟩
    simp [Connection.hear, hmem, hwrites, Outgoing.report?, Event.broadcast?]

/-- What one task of the connection does, the other does not see. -/
theorem Fits.update {c' : Connection} (h : Fits log sinks peer c) (hstage : c'.stage = c.stage)
    (hwriting : c'.writing = true → c.writing = true)
    (hfresh : c.stage = .starting → c' = c)
    (heard : c'.writing = true → (c'.written ++ c'.waiting).filterMap Outgoing.report? =
      (c.written ++ c.waiting).filterMap Outgoing.report?) : Fits log sinks peer c' where
  fresh := by
    intro hstarting
    have hsame := hfresh (hstage.symm.trans hstarting)
    rw [hsame]
    exact h.fresh (hstage.symm.trans hstarting)
  present := fun hreading => h.present (hstage.symm.trans hreading)
  gone := fun hfinished => h.gone (hstage.symm.trans hfinished)
  hears := by
    intro hreading hwrites
    obtain ⟨hmem, before, after, hlog, hheard⟩ := h.hears (hstage.symm.trans hreading) (hwriting hwrites)
    exact ⟨hmem, before, after, hlog, (heard hwrites).trans hheard⟩

theorem Fits.write (h : Fits log sinks peer c) (ok : Bool) :
    Fits log sinks peer (c.write ok) := by
  have hidle : c.stage = .starting → c.write ok = c := by
    intro hstage
    obtain ⟨-, -, -, hwriting⟩ := h.fresh hstage
    simp [Connection.write, hwriting]
  fun_cases Connection.write c ok with
  | case1 out waiting hwaiting hwriting hok =>
      refine h.update rfl (fun _ => hwriting) ?_ ?_
      · intro hstage
        simpa [Connection.write, hwriting, hwaiting, hok] using hidle hstage
      · intro _
        simp [hwaiting]
  | case2 out waiting hwaiting hwriting hok =>
      refine h.update rfl (fun hfalse => absurd hfalse Bool.noConfusion) ?_ ?_
      · intro hstage
        simpa [Connection.write, hwriting, hwaiting, hok] using hidle hstage
      · intro hfalse
        exact absurd hfalse Bool.noConfusion
  | case3 => exact h

end Fits

/-! ## Nothing is lost, and nobody else is heard -/

/-- The dealer is sound; what it was told and what it has reported is what the history says, or
    still in a queue; and the connections are where the history says. -/
structure Server.Linked (setup : Setup) (s : Server) : Prop where
  dealer : s.dealer.Sound setup.params
  told : takenTolds s.dealer.worker.log ++ s.toDealer = setup.limits ++ s.log.filterMap Event.told?
  reports : s.log.filterMap Event.broadcast? ++ s.fromDealer =
    s.dealer.worker.log.filterMap TradeEvent.sent?
  admitted : Justified Admitted s.log
  absent : ∀ peer, s.connections peer = none → .authorized peer ∉ s.log
  fits : ∀ peer c, s.connections peer = some c → Fits s.log s.sinks peer c

section Linked

variable {setup : Setup} {s : Server} {peer : Nat} {c : Connection}

theorem Server.Linked.set {c' : Connection} (h : s.Linked setup)
    (hfits : Fits s.log s.sinks peer c') : (s.set peer c').Linked setup where
  dealer := h.dealer
  told := h.told
  reports := h.reports
  admitted := h.admitted
  absent := by
    intro other hnone
    by_cases heq : other = peer
    · subst heq
      simp [Server.set] at hnone
    · exact h.absent other (by simpa [Server.set, heq] using hnone)
  fits := by
    intro other c'' hsome
    by_cases heq : other = peer
    · subst heq
      simp only [Server.set, Function.update_self, Option.some.injEq] at hsome
      exact hsome ▸ hfits
    · exact h.fits other c'' (by simpa [Server.set, heq] using hsome)

/-- A client that is not there cannot be let in twice. -/
theorem Server.Linked.authorize (h : s.Linked setup) (hconn : s.connections peer = some c)
    (hstage : c.stage = .starting) : (s.authorize peer c).Linked setup := by
  obtain ⟨hnot, hwritten, hwaiting, -⟩ := (h.fits peer c hconn).fresh hstage
  have hleft : Event.left peer ∉ s.log := by
    intro hmem
    obtain ⟨n, hn⟩ := List.mem_iff_getElem?.mp hmem
    exact hnot (List.mem_of_mem_take (h.admitted n _ hn).1)
  refine ⟨h.dealer, ?_, ?_, h.admitted.concat hnot, ?_, ?_⟩
  · simpa [Server.authorize, Server.set, List.filterMap_cons, Event.told?] using h.told
  · simpa [Server.authorize, Server.set, List.filterMap_cons, Event.broadcast?] using h.reports
  · intro other hnone
    by_cases heq : other = peer
    · subst heq
      simp [Server.authorize, Server.set] at hnone
    · refine (mem_concat_of_ne (by simpa using heq)).not.mpr (h.absent other ?_)
      simpa [Server.authorize, Server.set, heq] using hnone
  · intro other c' hsome
    by_cases heq : other = peer
    · subst heq
      simp only [Server.authorize, Server.set, Function.update_self, Option.some.injEq] at hsome
      subst hsome
      constructor
      · exact fun hstarting => absurd hstarting Stage.noConfusion
      · exact fun _ => ⟨List.mem_append_right _ List.mem_cons_self,
          (mem_concat_of_ne Event.noConfusion).not.mpr hleft⟩
      · exact fun hfinished => absurd hfinished Stage.noConfusion
      · intro _ _
        refine ⟨List.mem_append_right _ List.mem_cons_self, s.log, [], rfl, ?_⟩
        simp [hwritten, hwaiting]
    · refine (h.fits other c' ?_).concat ?_ Event.noConfusion rfl (List.mem_append_left _)
      · simpa [Server.authorize, Server.set, heq] using hsome
      · simpa using Ne.symm heq

/-- A client leaves, and the prices with it. -/
theorem Server.Linked.leave (h : s.Linked setup) (hconn : s.connections peer = some c)
    (hstage : c.stage = .reading) : (s.leave peer c).Linked setup := by
  have hpresent := (h.fits peer c hconn).present hstage
  refine ⟨h.dealer, ?_, ?_, h.admitted.concat hpresent, ?_, ?_⟩
  · simp only [Server.leave, Server.set, List.filterMap_append]
    rw [← List.append_assoc, ← List.append_assoc, h.told]
    rfl
  · simpa [Server.leave, Server.set, List.filterMap_cons, Event.broadcast?] using h.reports
  · intro other hnone
    by_cases heq : other = peer
    · subst heq
      simp [Server.leave, Server.set] at hnone
    · refine (mem_concat_of_ne Event.noConfusion).not.mpr (h.absent other ?_)
      simpa [Server.leave, Server.set, heq] using hnone
  · intro other c' hsome
    by_cases heq : other = peer
    · subst heq
      simp only [Server.leave, Server.set, Function.update_self, Option.some.injEq] at hsome
      subst hsome
      constructor
      · exact fun hstarting => absurd hstarting Stage.noConfusion
      · exact fun hreading => absurd hreading Stage.noConfusion
      · exact fun _ hpresent => hpresent.2 (List.mem_append_right _ List.mem_cons_self)
      · exact fun hreading => absurd hreading Stage.noConfusion
    · refine (h.fits other c' ?_).concat Event.noConfusion ?_ rfl ?_
      · simpa [Server.leave, Server.set, heq] using hsome
      · simpa using Ne.symm heq
      · intro hmem
        simp [Server.leave, hmem, heq]

/-- A client says something. -/
theorem Server.Linked.say (h : s.Linked setup) (hconn : s.connections peer = some c)
    (hstage : c.stage = .reading) (msg : To) :
    Server.Linked setup
      { s with toDealer := s.toDealer ++ [msg], log := s.log ++ [.told peer msg] } := by
  refine ⟨h.dealer, ?_, ?_, h.admitted.concat ((h.fits peer c hconn).present hstage), ?_, ?_⟩
  · simp only [List.filterMap_append]
    rw [← List.append_assoc, ← List.append_assoc, h.told]
    rfl
  · simpa [List.filterMap_cons, Event.broadcast?] using h.reports
  · intro other hnone
    exact (mem_concat_of_ne Event.noConfusion).not.mpr (h.absent other hnone)
  · intro other c' hsome
    exact (h.fits other c' hsome).concat Event.noConfusion Event.noConfusion rfl id

theorem frame_linked (h : s.Linked setup) (hconn : s.connections peer = some c) (frame : Frame) :
    (s.frame setup peer c frame).Linked setup := by
  have hfits := h.fits peer c hconn
  simp only [Server.frame]
  cases hstage : c.stage with
  | starting =>
      obtain ⟨hnot, -⟩ := hfits.fresh hstage
      -- a client that is turned away has never been there
      have hrefused : Fits s.log s.sinks peer { c with stage := .finished } :=
        ⟨fun heq => absurd heq Stage.noConfusion, fun heq => absurd heq Stage.noConfusion,
          fun _ hpresent => hnot hpresent.1, fun heq => absurd heq Stage.noConfusion⟩
      cases frame with
      | data text =>
          simp only [Server.start]
          split
          · exact h.authorize hconn hstage
          · exact h.set hrefused
      | control => exact h.set hrefused
      | closed => exact h.set hrefused
  | reading =>
      cases frame with
      | data text =>
          simp only [Server.read]
          split
          · exact h.say hconn hstage _
          · split
            · refine h.set (hfits.update rfl id ?_ ?_)
              · intro hstarting
                exact absurd (hstage.symm.trans hstarting) Stage.noConfusion
              · intro _
                simp [Outgoing.report?]
            · exact h.leave hconn hstage
      | control => exact h
      | closed => exact h.leave hconn hstage
  | finished => exact h

theorem broadcast_linked {msg : From} {fromDealer : List From} (h : s.Linked setup)
    (hqueue : s.fromDealer = msg :: fromDealer) :
    (Server.broadcast { s with fromDealer } msg).Linked setup := by
  refine ⟨h.dealer, ?_, ?_, h.admitted.concat trivial, ?_, ?_⟩
  · simpa [Server.broadcast, List.filterMap_cons, Event.told?] using h.told
  · have hreports := h.reports
    rw [hqueue] at hreports
    simpa [Server.broadcast, List.filterMap_cons, Event.broadcast?] using hreports
  · intro peer hnone
    refine (mem_concat_of_ne Event.noConfusion).not.mpr (h.absent peer ?_)
    simpa [Server.broadcast] using hnone
  · intro peer c' hsome
    simp only [Server.broadcast, Option.map_eq_some_iff] at hsome
    obtain ⟨c, hconn, rfl⟩ := hsome
    refine (h.fits peer c hconn).broadcast msg ?_
    intro hmem hwriting
    refine List.mem_filter.mpr ⟨hmem, ?_⟩
    simp [hconn, hwriting]

/-- The dealer takes a message: from outside, or the next one of the queue. -/
theorem dealerStep_linked {msg : TradeMsg} (hrun : s.dealer.stopped = false)
    (hdealer : s.dealer.Sound setup.params)
    (htold : takenTolds s.dealer.worker.log ++ (toldOf msg).toList ++ s.toDealer =
      setup.limits ++ s.log.filterMap Event.told?)
    (hreports : s.log.filterMap Event.broadcast? ++ s.fromDealer =
      s.dealer.worker.log.filterMap TradeEvent.sent?)
    (hadmitted : Justified Admitted s.log)
    (habsent : ∀ peer, s.connections peer = none → .authorized peer ∉ s.log)
    (hfits : ∀ peer c, s.connections peer = some c → Fits s.log s.sinks peer c) :
    (dealerStep setup s msg).Linked setup where
  dealer := OrderDealer.trade_sound hdealer msg
  told := by
    simp only [dealerStep]
    rw [takenTolds_receipts, receipts_trade hrun, List.filterMap_append, ← takenTolds_receipts,
      ← htold]
    refine congrArg (takenTolds s.dealer.worker.log ++ · ++ s.toDealer) ?_
    cases htaken : toldOf msg with
    | none => exact List.filterMap_cons_none htaken
    | some msg' => exact List.filterMap_cons_some htaken
  reports := by
    simp only [dealerStep]
    rw [filterMap_news TradeEvent.sent? (trade_grows setup.market hdealer msg), ← hreports,
      List.append_assoc]
  admitted := hadmitted
  absent := habsent
  fits := hfits

/-- **ONE MOVE** of the server. -/
theorem step_linked {i : Input} (h : s.Linked setup) (hok : i.External) :
    (step setup s i).Linked setup := by
  simp only [step]
  split
  · exact h
  · next hrun =>
      have hrun := Bool.eq_false_iff.mpr hrun
      cases i with
      | accept peer =>
          dsimp only
          split
          · next hnone =>
              refine h.set ⟨?_, ?_, ?_, ?_⟩
              · exact fun _ => ⟨h.absent peer hnone, rfl, rfl, rfl⟩
              · exact fun heq => absurd heq Stage.noConfusion
              · exact fun heq => absurd heq Stage.noConfusion
              · exact fun heq => absurd heq Stage.noConfusion
          · exact h
      | frame peer frame =>
          dsimp only
          cases hconn : s.connections peer with
          | none => exact h
          | some c => exact frame_linked h hconn frame
      | write peer ok =>
          dsimp only
          cases hconn : s.connections peer with
          | none => exact h
          | some c => exact h.set ((h.fits peer c hconn).write ok)
      | broadcast =>
          dsimp only
          split
          · exact h
          · next msg fromDealer hqueue => exact broadcast_linked h hqueue
      | dealer msg =>
          refine dealerStep_linked hrun h.dealer ?_ h.reports h.admitted h.absent h.fits
          have hnone : toldOf msg = none := hok
          rw [hnone, Option.toList_none, List.append_nil]
          exact h.told
      | dealerTakes =>
          dsimp only
          split
          · exact h
          · next msg toDealer hqueue =>
              refine dealerStep_linked (s := { s with toDealer }) hrun h.dealer ?_ h.reports
                h.admitted h.absent h.fits
              have htold := h.told
              rw [hqueue] at htold
              rw [← htold, List.append_assoc]
              rfl

theorem first_linked : (first setup).Linked setup where
  dealer := OrderDealer.trades_sound (.start rfl)
  told := rfl
  reports := rfl
  admitted := justified_nil _
  absent := fun _ _ => List.not_mem_nil
  fits := by
    intro peer c hsome
    cases hsome

theorem runs_linked (h : Runs setup s) : s.Linked setup := by
  refine h.invariant ?_ ?_
  · rintro s rfl
    exact first_linked
  · intro s i _ hlinked hok
    exact step_linked hlinked hok

end Linked

/-! ## The prices of the trades -/

/-- A price of a client that is there as far as the dealer, which was told this much, has
    heard. -/
def Offered (setup : Setup) (log : List Event) (told : List To) (ticker : DealerTicker)
    (pair : PricePair) : Prop :=
  ∃ heard peer, heard <+: log ∧ told = setup.limits ++ heard.filterMap Event.told? ∧
    .told peer (.price ticker (some pair)) ∈ heard ∧ Present heard peer

/-- The terms pay an interest over such a price. -/
def Pays (setup : Setup) (log : List Event) (told : List To) (usdt eurx : ℚ)
    (assets : List Asset) (details : Details) : Prop :=
  ∃ asset ticker pair interest, assets.find? (·.assetId == details.asset) = some asset ∧
    OrderDealer.tickerFromAsset asset = some ticker ∧
    setup.params.interestOf usdt eurx details.asset = .ok interest ∧
    Offered setup log told ticker pair ∧
    OrderDealer.PaysInterest details.sendBitcoins pair interest
      (OrderDealer.actualPrice details asset)

/-- What the dealer signs or takes pays its interest to a client's price. -/
def Priced (setup : Setup) (log : List Event) (before : List TradeEvent) : TradeEvent → Prop
  | .request (.sign req) _ =>
      ∃ order, latest TradeEvent.received? before = some (.sign order) ∧
        order.orderId = req.orderId ∧
        Pays setup log (takenTolds before) setup.params.interestSignUsdt
          setup.params.interestSignEurx (OrderDealer.account before).assets order.details
  | .request (.psetTaker req) _ =>
      ∃ order, (OrderDealer.account before).listed req.orderId = some order ∧
        Pays setup log (takenTolds before) setup.params.interestSubmitUsdt
          setup.params.interestSubmitEurx (OrderDealer.account before).assets order.details
  | _ => True

section Results

variable {setup : Setup} {s : Server}

theorem not_price_of_limits {msg : To} (h : msg ∈ setup.limits) (ticker : DealerTicker)
    (pair : Option PricePair) : msg ≠ .price ticker pair := by
  rintro rfl
  simp [Setup.limits] at h

/-- A history that the dealer has heard of, up to some message. -/
theorem heard_of_told (h : s.Linked setup) {n : Nat} {ticker : DealerTicker} {pair : PricePair}
    (hmem : To.price ticker (some pair) ∈ takenTolds (s.dealer.worker.log.take n)) :
    ∃ heard, heard <+: s.log ∧
      takenTolds (s.dealer.worker.log.take n) = setup.limits ++ heard.filterMap Event.told? := by
  have hprefix : takenTolds (s.dealer.worker.log.take n) <+:
      setup.limits ++ s.log.filterMap Event.told? := by
    rw [← h.told]
    exact ((List.take_prefix n _).filterMap _).trans (List.prefix_append _ _)
  rcases List.prefix_or_prefix_of_prefix hprefix (List.prefix_append setup.limits _) with hle | hle
  · exact absurd rfl (not_price_of_limits (hle.subset hmem) ticker (some pair))
  · obtain ⟨told, htold⟩ := hle
    obtain ⟨rest, hrest⟩ := hprefix
    rw [← htold, List.append_assoc] at hrest
    obtain ⟨heard, later, hlog, hheard, -⟩ :=
      List.filterMap_eq_append_iff.mp (List.append_cancel_left hrest).symm
    refine ⟨heard, ⟨later, hlog.symm⟩, ?_⟩
    rw [← htold, hheard]

/-- A price that the dealer holds is one of a client that is there as far as it has heard. -/
theorem offered_of_told (h : s.Linked setup) {n : Nat} {ticker : DealerTicker} {pair : PricePair}
    (htold : (OrderDealer.account (s.dealer.worker.log.take n)).told ticker = some pair) :
    Offered setup s.log (takenTolds (s.dealer.worker.log.take n)) ticker pair := by
  rw [dealer_told] at htold
  obtain ⟨before, after, hmsgs, -⟩ := told_last htold
  have hmem : To.price ticker (some pair) ∈ takenTolds (s.dealer.worker.log.take n) := by
    rw [hmsgs]
    exact List.mem_append_right _ List.mem_cons_self
  obtain ⟨heard, hprefix, hheard⟩ := heard_of_told h hmem
  -- the limits say nothing about prices
  rw [hheard, List.foldl_append] at htold
  have hlast : ((heard.filterMap Event.told?).foldl tell fun _ => none) ticker = some pair := htold
  obtain ⟨before, after, hmsgs, hnot⟩ := told_last hlast
  obtain ⟨earlier, later, rfl, -, hlater⟩ := List.filterMap_eq_append_iff.mp hmsgs
  obtain ⟨between, e, rest, rfl, hbetween, he, hrest⟩ := List.filterMap_eq_cons_iff.mp hlater
  have hevent : ∃ peer, e = .told peer (.price ticker (some pair)) := by
    cases e with
    | told peer msg =>
        cases he
        exact ⟨peer, rfl⟩
    | _ => cases he
  obtain ⟨peer, rfl⟩ := hevent
  refine ⟨_, peer, hprefix, hheard, by simp, ?_⟩
  obtain ⟨unheard, hlog⟩ := hprefix
  have hpresent : Present (earlier ++ between) peer := by
    have hlog : s.log = (earlier ++ between ++ [.told peer (.price ticker (some pair))]) ++
        (rest ++ unheard) := by
      simp [← hlog]
    have hadmitted := h.admitted
    rw [hlog] at hadmitted
    exact hadmitted.of_append.last
  refine ⟨?_, ?_⟩
  · have hin := List.mem_append.mp hpresent.1
    simp only [List.mem_append]
    tauto
  · intro hmem
    have hleft : Event.left peer ∈ rest := by
      have hout := List.mem_append.not.mp hpresent.2
      simp only [List.mem_append, List.mem_cons, reduceCtorEq, false_or] at hmem
      tauto
    exact hnot (hrest ▸ List.mem_filterMap.mpr ⟨_, hleft, rfl⟩)

theorem pays_of_fair (h : s.Linked setup) {n : Nat} {usdt eurx : ℚ} {details : Details}
    (hpays : OrderDealer.Pays setup.params usdt eurx
      (OrderDealer.account (s.dealer.worker.log.take n)) details) :
    Pays setup s.log (takenTolds (s.dealer.worker.log.take n)) usdt eurx
      (OrderDealer.account (s.dealer.worker.log.take n)).assets details := by
  obtain ⟨asset, ticker, pair, interest, hasset, hticker, htold, hinterest, hpays⟩ := hpays.pays
  exact ⟨asset, ticker, pair, interest, hasset, hticker, hinterest, offered_of_told h htold, hpays⟩

/-- **TRADES AT PRICES OF CLIENTS**: what the dealer signs or takes pays its interest over the
    price of a client that knows the secret and that, as far as the dealer has heard, is still
    there. -/
theorem trades_priced (h : Runs setup s) :
    Justified (Priced setup s.log) s.dealer.worker.log := by
  have hlinked := runs_linked h
  intro n e he
  have hfair := hlinked.dealer.fair n e he
  fun_cases Priced setup s.log (s.dealer.worker.log.take n) e with
  | case1 req res =>
      obtain ⟨order, hlatest, hid, hpays⟩ := hfair
      exact ⟨order, hlatest, hid, pays_of_fair hlinked hpays⟩
  | case2 req res =>
      obtain ⟨-, order, hlisted, hpays⟩ := hfair
      exact ⟨order, hlisted, pays_of_fair hlinked hpays⟩
  | case3 => trivial

/-- **NO PRICE OUTLIVES ITS CLIENT**: once the dealer has taken all that it was sent, each price
    that it holds was sent by a client whose messages are still read. -/
theorem prices_of_clients (h : Runs setup s) (hrun : s.dealer.stopped = false)
    (htaken : s.toDealer = []) {ticker : DealerTicker} {price : OrderDealer.PriceTimestamp}
    (hprice : s.dealer.worker.data.indexPrices ticker = some price) :
    ∃ peer c, .told peer (.price ticker (some price.price)) ∈ s.log ∧
      s.connections peer = some c ∧ c.stage = .reading := by
  have hlinked := runs_linked h
  have htold : (OrderDealer.account s.dealer.worker.log).told ticker = some price.price :=
    (hlinked.dealer.tables hrun).agrees.prices ticker price hprice
  rw [← List.take_length (l := s.dealer.worker.log)] at htold
  obtain ⟨heard, peer, ⟨unheard, hlog⟩, hheard, hmem, hpresent⟩ := offered_of_told hlinked htold
  have hall : unheard.filterMap Event.told? = [] := by
    have hsent := hlinked.told
    rw [htaken, List.append_nil, ← List.take_length (l := s.dealer.worker.log), hheard, ← hlog,
      List.filterMap_append] at hsent
    exact List.self_eq_append_right.mp (List.append_cancel_left hsent)
  have hstays : Present s.log peer := by
    rw [← hlog]
    refine ⟨List.mem_append_left _ hpresent.1, ?_⟩
    intro hleft
    rcases List.mem_append.mp hleft with hleft | hleft
    · exact hpresent.2 hleft
    · cases List.filterMap_eq_nil_iff.mp hall _ hleft
  refine ⟨peer, ?_⟩
  cases hconn : s.connections peer with
  | none => exact absurd hstays.1 (hlinked.absent peer hconn)
  | some c =>
      have hfits := hlinked.fits peer c hconn
      refine ⟨c, hlog ▸ List.mem_append_left _ hmem, rfl, ?_⟩
      cases hstage : c.stage with
      | starting => exact absurd hstays.1 (hfits.fresh hstage).1
      | reading => rfl
      | finished => exact absurd hstays (hfits.gone hstage)

/-- **EVERY REPORT IS HEARD**: while a client's messages are read and somebody writes to it, all
    that the dealer has reported was broadcast before the client was let in, was written to the
    client or waits for it, or is still to be broadcast, each report once and in its order. -/
theorem reports_heard (h : Runs setup s) {peer : Nat} {c : Connection}
    (hconn : s.connections peer = some c) (hreading : c.stage = .reading)
    (hwriting : c.writing = true) :
    ∃ before after, s.log = before ++ .authorized peer :: after ∧
      s.dealer.worker.log.filterMap TradeEvent.sent? = before.filterMap Event.broadcast? ++
        (c.written ++ c.waiting).filterMap Outgoing.report? ++ s.fromDealer := by
  have hlinked := runs_linked h
  obtain ⟨-, before, after, hlog, hheard⟩ := (hlinked.fits peer c hconn).hears hreading hwriting
  refine ⟨before, after, hlog, ?_⟩
  rw [← hlinked.reports, hheard, hlog, List.filterMap_append,
    List.filterMap_cons_none (by simp [Event.broadcast?])]

end Results

namespace Sample

/-- Three texts are understood. -/
def setup : Setup where
  market := OrderDealer.TradeSample.world
  params := OrderDealer.TradeSample.params
  wsSecret := "secret"
  bitcoinAmountMax := .fin 1
  parseStart text := if text = "authorize" then some "secret" else none
  parseMessage text :=
    if text = "price" then .ok (.price .usdt (some ⟨.fin 29000, .fin 30000⟩))
    else .error "expected value"

/-- A client sends a price, and hears of the order that is taken at it. -/
def inputs : List Input :=
  [.accept 0, .accept 1, .frame 0 (.data "authorize"), .frame 1 (.data "price"),
    .frame 0 (.data "price"), .frame 0 (.data "?"), .dealerTakes, .dealerTakes, .dealerTakes,
    .dealer .connected, .dealer (.reloadUtxo [OrderDealer.Sample.coin]), .dealer .timer,
    .dealer (.sign ⟨9, "pset", OrderDealer.TradeSample.details, none⟩),
    .dealer (.complete ⟨9, some 55⟩), .broadcast, .write 0 true]

theorem runs : Runs setup (run (step setup) (first setup) inputs) := by
  have hstart : Runs setup (first setup) := .start rfl
  refine hstart.run inputs ?_
  simp [inputs, Allowed, Input.External, toldOf]

end Sample

/-- The order was taken at the price of the client. -/
theorem taken_order_priced :
    let s := run (step Sample.setup) (first Sample.setup) Sample.inputs
    (OrderDealer.account s.dealer.worker.log).taken 9 = true ∧
      Justified (Priced Sample.setup s.log) s.dealer.worker.log := by
  exact ⟨by decide +kernel, trades_priced Sample.runs⟩

/-- The client of the price is still there. -/
theorem price_of_client :
    let s := run (step Sample.setup) (first Sample.setup) Sample.inputs
    ∃ peer c, .told peer (.price .usdt (some ⟨.fin 29000, .fin 30000⟩)) ∈ s.log ∧
      s.connections peer = some c ∧ c.stage = .reading := by
  intro s
  have hprice : s.dealer.worker.data.indexPrices .usdt =
      some ⟨⟨.fin 29000, .fin 30000⟩, 0⟩ := by
    decide +kernel
  refine prices_of_clients Sample.runs ?_ ?_ hprice
  · decide +kernel
  · decide +kernel

/-- The report of its swap waits behind the error that was written. -/
theorem swap_heard :
    let s := run (step Sample.setup) (first Sample.setup) Sample.inputs
    ∃ before after, s.log = before ++ .authorized 0 :: after ∧
      s.dealer.worker.log.filterMap TradeEvent.sent? = before.filterMap Event.broadcast? ++
        [.swap ⟨55, .usdt, 10010000, true⟩] ++ s.fromDealer := by
  intro s
  have hconn : s.connections 0 = some
      ⟨.reading, [.report (.swap ⟨55, .usdt, 10010000, true⟩)], [.error "expected value"], true⟩ := by
    decide +kernel
  exact reports_heard Sample.runs hconn rfl rfl

end PriceServer
