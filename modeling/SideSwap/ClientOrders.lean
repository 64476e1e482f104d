import SideSwap.ClientActs

/-! # The order list on the user's screen

    The user sees the orders that `OrderCreated` messages have put on the list
    and `OrderRemoved` messages have not taken off.  `shownOrders` folds the
    messages; the worker keeps its own copy of the result in `orders_sent`.

    Two things make the list the worker's.  Whatever happens, the messages fold
    to `orders_sent`: that is an invariant of the acts and of the changes of the
    list.  And every handler that changes `orders_last` goes on to
    `sync_order_list` on every way to its end, after which the two lists are
    the same. -/

namespace Client

open Api Program Relation Transition

/-- An order message changes the list that is seen. -/
def showOrder (shown : Std.TreeMap OrderId Order) : Event → Std.TreeMap OrderId Order
  | .toUi (.orderCreated order _) => shown.insert order.orderId order
  | .toUi (.orderRemoved orderId) => shown.erase orderId
  | _ => shown

/-- The order list the user sees. -/
def shownOrders (log : List Event) : Std.TreeMap OrderId Order := log.foldl showOrder ∅

/-- An order that is announced as new is not on the list yet. -/
def NewToUser (log : List Event) (e : Event) : Prop :=
  ∀ order, e = .toUi (.orderCreated order true) → (shownOrders log)[order.orderId]? = none

/-- The messages about the order list. -/
def Event.isListing : Event → Bool
  | .toUi (.orderCreated _ _) => true
  | .toUi (.orderRemoved _) => true
  | _ => false

theorem shownOrders_concat (log : List Event) (e : Event) :
    shownOrders (log ++ [e]) = showOrder (shownOrders log) e := by
  unfold shownOrders
  rw [List.foldl_append]
  rfl

theorem showOrder_other {e : Event} (h : Event.isListing e = false)
    (shown : Std.TreeMap OrderId Order) : showOrder shown e = shown := by
  unfold showOrder
  split
  · cases h
  · cases h
  · rfl

/-! ## What the messages say -/

/-- The order list is left alone. -/
structure Unlisted (c c' : Core) : Prop where
  last : c'.ordersLast = c.ordersLast
  sent : c'.ordersSent = c.ordersSent
  silent : ∃ es, c'.log = c.log ++ es ∧ ∀ e ∈ es, Event.isListing e = false

theorem Unlisted.same {c c' : Core} (hlast : c'.ordersLast = c.ordersLast)
    (hsent : c'.ordersSent = c.ordersSent) (hlog : c'.log = c.log) : Unlisted c c' :=
  ⟨hlast, hsent, [], by rw [hlog, List.append_nil], fun _ h => nomatch h⟩

theorem Unlisted.one {c c' : Core} {e : Event} (hlast : c'.ordersLast = c.ordersLast)
    (hsent : c'.ordersSent = c.ordersSent) (hlog : c'.log = c.log ++ [e])
    (he : Event.isListing e = false) : Unlisted c c' :=
  ⟨hlast, hsent, [e], hlog, List.forall_mem_singleton.mpr he⟩

theorem Unlisted.two {c c' : Core} {e e' : Event} (hlast : c'.ordersLast = c.ordersLast)
    (hsent : c'.ordersSent = c.ordersSent) (hlog : c'.log = c.log ++ [e] ++ [e'])
    (he : Event.isListing e = false) (he' : Event.isListing e' = false) : Unlisted c c' := by
  refine ⟨hlast, hsent, [e, e'], by rw [hlog, List.append_assoc]; rfl, ?_⟩
  intro e'' hmem
  rcases List.mem_pair.mp hmem with rfl | rfl
  · exact he
  · exact he'

theorem isListing_of_isNote {e : Event} (h : e.isNote = true) : Event.isListing e = false := by
  unfold Event.isListing
  split
  · cases h
  · cases h
  · rfl

theorem Note.unlisted {c c' : Core} (h : Note c c') : Unlisted c c' := by
  obtain ⟨hnote, _⟩ := h
  exact .one rfl rfl rfl (isListing_of_isNote hnote)

theorem Attempt.unlisted {msg : SignNotification} {c : Core} {b b' : Book} (h : Attempt msg b b')
    (hlog : b.log = c.log) (n : Nat) : Unlisted c { c with toBook := b', nextRequestId := n } := by
  cases h with
  | none => exact .same rfl rfl hlog
  | refused _ => exact .one rfl rfl (congrArg (· ++ _) hlog) rfl
  | sent _ => exact .two rfl rfl (congrArg (fun log => log ++ _ ++ _) hlog) rfl rfl

theorem Unlisted.trans {c c' c'' : Core} (h : Unlisted c c') (h' : Unlisted c' c'') :
    Unlisted c c'' := by
  obtain ⟨es, hes, hnone⟩ := h.silent
  obtain ⟨es', hes', hnone'⟩ := h'.silent
  refine ⟨h'.last.trans h.last, h'.sent.trans h.sent, es ++ es', ?_, ?_⟩
  · rw [hes', hes, List.append_assoc]
  · intro e he
    rcases List.mem_append.mp he with hmem | hmem
    · exact hnone e hmem
    · exact hnone' e hmem

theorem Take.unlisted {msg : SignNotification} {c c' : Core} (h : Take msg c c') :
    Unlisted c c' := by
  cases h with
  | refuse _ => exact .same rfl rfl rfl
  | queue _ _ _ _ => exact .one rfl rfl rfl rfl
  | @autoSign entry precision b n _ _ _ _ hattempt _ =>
      have htake : Unlisted c { c with toBook := c.toBook.take msg entry precision } :=
        .one rfl rfl rfl rfl
      exact htake.trans (hattempt.unlisted rfl n)

theorem isListing_callEvents {requestId : Option String} {callback : AsyncRequest}
    {res : Except Error Response} {e : Event} (h : e ∈ callEvents requestId callback res) :
    Event.isListing e = false := by
  rcases callEvents_cases h with rfl | hnote
  · rfl
  · exact isListing_of_isNote hnote

/-- No act touches the order list. -/
theorem Act.unlisted {world : World} {cause : Message} {c c' : Core} (h : Act world cause c c') :
    Unlisted c c' := by
  cases h with
  | note hnote => exact hnote.unlisted
  | accept _ _ _ _ _ _ => exact .two rfl rfl rfl rfl rfl
  | restore _ _ _ _ _ => exact .one rfl rfl rfl rfl
  | @takeQueued _ msg rest _ htake =>
      have hqueue : Unlisted c { c with pendingSignRequests := rest } := .same rfl rfl rfl
      exact hqueue.trans htake.unlisted
  | takeArrived _ htake => exact htake.unlisted
  | prompt _ _ _ => exact .one rfl rfl rfl rfl
  | review _ => exact .one rfl rfl rfl rfl
  | @decide req msg b n _ _ _ _ _ hattempt _ =>
      exact hattempt.unlisted rfl n
  | edit _ _ => exact .one rfl rfl rfl rfl
  | editEntry _ _ => exact .one rfl rfl rfl rfl
  | startSwap _ _ _ => exact .one rfl rfl rfl rfl
  | refuseSwap _ _ _ => exact .one rfl rfl rfl rfl
  | signSwap _ _ _ _ => exact .two rfl rfl rfl rfl rfl
  | createTx => exact .one rfl rfl rfl rfl
  | sendTx _ => exact .one rfl rfl rfl rfl
  | ask _ _ => exact .one rfl rfl rfl rfl
  | askOffline _ => exact ⟨rfl, rfl, _, rfl, fun _ => isListing_callEvents⟩
  | answer _ _ => exact ⟨rfl, rfl, _, rfl, fun _ => isListing_callEvents⟩
  | drain _ =>
      refine ⟨rfl, rfl, _, rfl, ?_⟩
      intro e he
      obtain ⟨line, _, hmem⟩ := List.mem_flatMap.mp he
      exact isListing_callEvents hmem
  | _ => exact .same rfl rfl rfl

/-- The messages tell the user the worker's copy of the list. -/
structure ListTold (c : Core) : Prop where
  /-- lines are kept under their order ids -/
  keyed : ∀ (orderId : OrderId) (order : Order), c.ordersLast[orderId]? = some order →
    order.orderId = orderId
  shown : ∀ orderId : OrderId, (shownOrders c.log)[orderId]? = c.ordersSent[orderId]?
  fresh : History.Justified NewToUser c.log

theorem shownOrders_silent {es : List Event} (h : ∀ e ∈ es, Event.isListing e = false)
    (log : List Event) : shownOrders (log ++ es) = shownOrders log := by
  induction es using List.reverseRecOn with
  | nil => rw [List.append_nil]
  | append_singleton es e ih =>
      rw [← List.append_assoc, shownOrders_concat,
        showOrder_other (h e (List.mem_append_right es (List.mem_singleton_self e))),
        ih fun e' he' => h e' (List.mem_append_left [e] he')]

/-- Only order messages announce orders. -/
theorem newToUser_silent {e : Event} (h : Event.isListing e = false) (log : List Event) :
    NewToUser log e := by
  rintro order rfl
  cases h

theorem ListTold.unlisted {c c' : Core} (h : ListTold c) (hc : Unlisted c c') : ListTold c' := by
  obtain ⟨es, hlog, hes⟩ := hc.silent
  constructor
  · rw [hc.last]
    exact h.keyed
  · rw [hc.sent, hlog, shownOrders_silent hes]
    exact h.shown
  · rw [hlog]
    exact h.fresh.append fun n e hn => newToUser_silent (hes e (List.mem_of_getElem? hn)) _

theorem ListTold.showing {c c' : Core} (h : ListTold c) (hc : Showing c c') : ListTold c' := by
  cases hc with
  | @remove orderId hgone =>
      refine ⟨h.keyed, ?_, h.fresh.concat fun order horder => nomatch horder⟩
      intro id
      show (shownOrders (c.log ++ [_]))[id]? = (c.ordersSent.erase orderId)[id]?
      rw [shownOrders_concat]
      show ((shownOrders c.log).erase orderId)[id]? = _
      rw [Table.getElem?_erase_eq, Table.getElem?_erase_eq, h.shown]
  | @put orderId order hline _ =>
      have hkey := h.keyed orderId order hline
      refine ⟨h.keyed, ?_, h.fresh.concat ?_⟩
      · intro id
        show (shownOrders (c.log ++ [_]))[id]? = (c.ordersSent.insert orderId order)[id]?
        rw [shownOrders_concat]
        show ((shownOrders c.log).insert order.orderId order)[id]? = _
        rw [Table.getElem?_insert_eq, Table.getElem?_insert_eq, h.shown, hkey]
      · -- the flag is computed from the copy, and the copy is what is shown
        intro order' heq
        injection heq with hmsg
        injection hmsg with horder hnew
        rw [← horder, hkey, h.shown]
        exact Option.isNone_iff_eq_none.mp (Bool.and_eq_true_iff.mp hnew).1

theorem ListTold.listing {c c' : Core} (h : ListTold c) (hc : Listing c c') : ListTold c' := by
  cases hc with
  | @change ordersLast hlines =>
      refine ⟨fun orderId order horder => ?_, h.shown, h.fresh⟩
      rcases hlines orderId order horder with hkey | ⟨old, hold, hsame⟩
      · exact hkey
      · rw [← hsame]
        exact h.keyed orderId old hold
  | shows hshow => exact h.showing hshow

/-- The messages say what the worker's copy says, in every reachable state. -/
theorem reaches_listTold {world : World} {ok : System → Message → Prop} {s : System}
    (h : Reaches world ok s) : ListTold s.data.core := by
  refine reaches_core (I := ListTold) (K := fun _ _ => ListTold) ?_ ?_ ?_ ?_ ?_ h
  · intro liquidAssetId disableDeviceKey settings
    refine ⟨fun orderId order horder => ?_, fun orderId => rfl, History.justified_nil _⟩
    rw [show (initialData liquidAssetId disableDeviceKey settings).core.ordersLast = ∅ from rfl,
      Std.TreeMap.getElem?_emptyc] at horder
    cases horder
  · exact fun c c' hnote hI => hI.unlisted hnote.unlisted
  · exact fun s msg _ hI => hI.unlisted (.one rfl rfl rfl rfl)
  · intro s msg _ c c' hplay hK
    cases hplay with
    | act hact => exact hK.unlisted hact.unlisted
    | list hlist => exact hK.listing hlist
  · exact fun _ _ _ _ hK => hK

/-! ## `sync_order_list` -/

/-- The list that has been sent is the worker's. -/
def Synced (d : Data) : Prop :=
  ∀ orderId : OrderId, d.ordersSent[orderId]? = d.ordersLast[orderId]?

/-- The first loop takes its orders off the list. -/
theorem exec_syncRemoved (ids : List OrderId) (d : Data) :
    ∃ d', exec (ids.forM syncRemovedOrder) d = (.ok (), d') ∧ d'.ordersLast = d.ordersLast ∧
      ∀ id : OrderId, d'.ordersSent[id]? = if id ∈ ids then none else d.ordersSent[id]? := by
  induction ids generalizing d with
  | nil => exact ⟨d, rfl, rfl, fun id => (if_neg (List.not_mem_nil)).symm⟩
  | cons orderId rest ih =>
      obtain ⟨d', hexec, hlast, hsent⟩ :=
        ih ({ d with ordersSent := d.ordersSent.erase orderId }.emit (.toUi (.orderRemoved orderId)))
      refine ⟨d', hexec, hlast, fun id => ?_⟩
      rw [hsent id]
      show (if id ∈ rest then none else (d.ordersSent.erase orderId)[id]?) = _
      rw [Table.getElem?_erase_eq]
      by_cases hrest : id ∈ rest
      · rw [if_pos hrest, if_pos (List.mem_cons_of_mem orderId hrest)]
      · rw [if_neg hrest]
        by_cases hid : orderId = id
        · rw [if_pos hid, if_pos (by rw [hid]; exact List.mem_cons_self)]
        · rw [if_neg hid, if_neg (by
            rintro (_ | ⟨_, hmem⟩)
            · exact hid rfl
            · exact hrest hmem)]

/-- The second loop puts its lines on the list. -/
theorem exec_syncOrders (lines : List (OrderId × Order)) (d : Data)
    (h : ∀ line ∈ lines, d.ordersLast[line.1]? = some line.2) :
    ∃ d', exec (lines.forM fun line => syncOrder line.1 line.2) d = (.ok (), d') ∧
      d'.ordersLast = d.ordersLast ∧
      ∀ id : OrderId, d'.ordersSent[id]? =
        if id ∈ lines.map (·.1) then d.ordersLast[id]? else d.ordersSent[id]? := by
  induction lines generalizing d with
  | nil => exact ⟨d, rfl, rfl, fun id => (if_neg (List.not_mem_nil)).symm⟩
  | cons line rest ih =>
      -- after the line itself, its id is bound to it
      obtain ⟨d1, hexec1, hlast1, hsent1⟩ : ∃ d1, exec (syncOrder line.1 line.2) d = (.ok (), d1) ∧
          d1.ordersLast = d.ordersLast ∧ ∀ id : OrderId, d1.ordersSent[id]? =
            if line.1 = id then some line.2 else d.ordersSent[id]? := by
        unfold syncOrder
        rw [exec_get_bind]
        show ∃ d1, exec (if d.ordersSent[line.1]? = some line.2 then _ else _) d = _ ∧ _
        split
        · next hsame =>
            refine ⟨d, rfl, rfl, fun id => ?_⟩
            split
            · next hid => rw [← hid, hsame]
            · rfl
        · exact ⟨_, rfl, rfl, fun id => Table.getElem?_insert_eq _ _ _ _⟩
      obtain ⟨d', hexec, hlast, hsent⟩ := ih d1 (by
        intro line' hmem
        rw [hlast1]
        exact h line' (List.mem_cons_of_mem line hmem))
      refine ⟨d', ?_, hlast.trans hlast1, fun id => ?_⟩
      · show exec (syncOrder line.1 line.2 >>= fun _ => rest.forM _) d = _
        rw [exec_bind, hexec1]
        exact hexec
      · rw [hsent id, hlast1, hsent1 id, List.map_cons]
        by_cases hrest : id ∈ rest.map (·.1)
        · rw [if_pos hrest, if_pos (List.mem_cons_of_mem _ hrest)]
        · rw [if_neg hrest]
          by_cases hid : line.1 = id
          · rw [if_pos hid, if_pos (by rw [hid]; exact List.mem_cons_self), ← hid,
              h line List.mem_cons_self]
          · rw [if_neg hid, if_neg (by
              rintro (_ | ⟨_, hmem⟩)
              · exact hid rfl
              · exact hrest hmem)]

/-- **THE DIFF**: `sync_order_list` brings the list that is shown to the
    worker's, whatever came before. -/
theorem exec_syncOrderList (d : Data) :
    ∃ d', exec syncOrderList d = (.ok (), d') ∧ Synced d' := by
  obtain ⟨d1, hexec1, hlast1, hsent1⟩ := exec_syncRemoved
    (d.ordersSent.keys.filter fun orderId => !d.ordersLast.contains orderId) d
  obtain ⟨d2, hexec2, hlast2, hsent2⟩ := exec_syncOrders d.ordersLast.toList d1 (by
    intro line hmem
    rw [hlast1]
    exact Std.TreeMap.mem_toList_iff_getElem?_eq_some.mp hmem)
  refine ⟨d2, ?_, fun id => ?_⟩
  · unfold syncOrderList
    rw [exec_get_bind, exec_bind, hexec1]
    exact hexec2
  · rw [hsent2 id, hlast2, hlast1]
    split
    · rfl
    · next hgone =>
        have hnone : d.ordersLast[id]? = none := by
          cases horder : d.ordersLast[id]? with
          | none => rfl
          | some order =>
              exact absurd (List.mem_map.mpr ⟨(id, order),
                Std.TreeMap.mem_toList_iff_getElem?_eq_some.mpr horder, rfl⟩) hgone
        rw [hsent1 id, hnone]
        split
        · rfl
        · next hkept =>
            -- what is neither on the worker's list nor taken off was never shown
            cases hsent : d.ordersSent[id]? with
            | none => rfl
            | some order =>
                refine absurd (List.mem_filter.mpr ⟨?_, ?_⟩) hkept
                · refine Std.TreeMap.mem_keys.mpr (Std.TreeMap.contains_iff_mem.mp ?_)
                  rw [Std.TreeMap.contains_eq_isSome_getElem?, hsent]
                  rfl
                · have hcontains : d.ordersLast.contains id = false := by
                    rw [Std.TreeMap.contains_eq_isSome_getElem?, hnone]
                    rfl
                  rw [hcontains]
                  rfl

/-- A list that is already shown is not shown again. -/
theorem exec_syncOrderList_again {d : Data} (h : Synced d) :
    exec syncOrderList d = (.ok (), d) := by
  have hremoved : (d.ordersSent.keys.filter fun orderId => !d.ordersLast.contains orderId) = [] := by
    refine List.filter_eq_nil_iff.mpr fun orderId hmem => ?_
    have hsome : d.ordersSent.contains orderId = true :=
      Std.TreeMap.contains_iff_mem.mpr (Std.TreeMap.mem_keys.mp hmem)
    rw [Std.TreeMap.contains_eq_isSome_getElem?, h orderId,
      ← Std.TreeMap.contains_eq_isSome_getElem?] at hsome
    rw [hsome]
    simp
  have hlines : ∀ lines : List (OrderId × Order),
      (∀ line ∈ lines, d.ordersLast[line.1]? = some line.2) →
      exec (lines.forM fun line => syncOrder line.1 line.2) d = (.ok (), d) := by
    intro lines
    induction lines with
    | nil => exact fun _ => rfl
    | cons line rest ih =>
        intro hmem
        have hsame : d.ordersSent[line.1]? = some line.2 := by
          rw [h line.1]
          exact hmem line List.mem_cons_self
        have hfirst : exec (syncOrder line.1 line.2) d = (.ok (), d) := by
          unfold syncOrder
          rw [exec_get_bind]
          show exec (if d.ordersSent[line.1]? = some line.2 then _ else _) d = _
          rw [if_pos hsame]
          rfl
        show exec (syncOrder line.1 line.2 >>= fun _ => rest.forM _) d = _
        rw [exec_bind, hfirst]
        exact ih fun line' hmem' => hmem line' (List.mem_cons_of_mem line hmem')
  unfold syncOrderList
  rw [exec_get_bind, hremoved]
  exact hlines _ fun line hmem => Std.TreeMap.mem_toList_iff_getElem?_eq_some.mp hmem

/-! ## Every handler ends with the list shown -/

/-- The handler stops the worker, or leaves it with its list shown. -/
def EndsSynced {α : Type} (p : Handler α) (d : Data) : Prop :=
  (∃ e, (exec p d).1 = .error (.panic e)) ∨ Synced (exec p d).2

/-- The handler does not end with an error value. -/
def Firm {α : Type} (p : Handler α) : Prop := ∀ d msg, (exec p d).1 ≠ .error (.error msg)

section Rules

variable {α β : Type} {p : Handler α} {f : α → Handler β} {d : Data}

theorem firm_attempt (p : Handler α) : Firm (attempt p) := by
  intro d msg
  show (attempt p d).1 ≠ _
  unfold attempt
  rcases exec p d with ⟨(_ | _) | _, d'⟩
  · rintro ⟨⟩
  · rintro ⟨⟩
  · rintro ⟨⟩

theorem firm_ofPanic (r : Except Panic α) : Firm (ofPanic r : Handler α) := by
  intro d msg
  cases r with
  | error p => rintro ⟨⟩
  | ok a => rintro ⟨⟩

theorem firm_modify (g : Data → Data) : Firm (modify g : Handler Unit) := by
  rintro d msg ⟨⟩

theorem Firm.bind (hp : Firm p) (hf : ∀ a, Firm (f a)) : Firm (p >>= f) := by
  intro d msg
  rw [exec_bind]
  have hfirst := hp d
  generalize exec p d = res at hfirst
  obtain ⟨e | a, d'⟩ := res
  · intro heq
    exact hfirst msg (congrArg Except.error (Except.error.inj heq))
  · exact hf a d' msg

theorem Firm.forM {g : α → Handler Unit} (hg : ∀ a, Firm (g a)) : ∀ xs : List α, Firm (xs.forM g)
  | [] => by rintro d msg ⟨⟩
  | x :: xs => Firm.bind (hg x) fun _ => Firm.forM hg xs

/-- A handler that is sure to go on to the synchronisation. -/
theorem Firm.endsSynced (hp : Firm p) (hf : ∀ a d', EndsSynced (f a) d') :
    EndsSynced (p >>= f) d := by
  unfold EndsSynced
  rw [exec_bind]
  have hfirst := hp d
  generalize exec p d = res at hfirst
  obtain ⟨e | a, d'⟩ := res
  · cases e with
    | error msg => exact absurd rfl (hfirst msg)
    | panic e => exact .inl ⟨e, rfl⟩
  · exact hf a d'

/-- What follows starts with the list shown. -/
theorem EndsSynced.bind (hp : EndsSynced p d) (hf : ∀ a d', Synced d' → EndsSynced (f a) d') :
    EndsSynced (p >>= f) d := by
  unfold EndsSynced at hp ⊢
  rw [exec_bind]
  generalize exec p d = res at hp
  obtain ⟨e | a, d'⟩ := res
  · rcases hp with ⟨e', he'⟩ | hsynced
    · exact .inl ⟨e', congrArg Except.error (Except.error.inj he')⟩
    · exact .inr hsynced
  · rcases hp with ⟨e', he'⟩ | hsynced
    · cases he'
    · exact hf a d' hsynced

theorem EndsSynced.attempt (hp : EndsSynced p d) : EndsSynced (Program.attempt p) d := by
  unfold EndsSynced at hp ⊢
  show (∃ e, (Program.attempt p d).1 = _) ∨ Synced (Program.attempt p d).2
  unfold Program.attempt
  generalize exec p d = res at hp
  obtain ⟨(msg | e) | a, d'⟩ := res
  · refine .inr (hp.resolve_left ?_)
    rintro ⟨e, ⟨⟩⟩
  · exact .inl ⟨e, rfl⟩
  · refine .inr (hp.resolve_left ?_)
    rintro ⟨e, ⟨⟩⟩

/-- A handler that leaves the order list alone leaves it shown. -/
theorem endsSynced_of_leads {R : Core → Core → Prop}
    (hR : ∀ c c', R c c' → c'.ordersLast = c.ordersLast ∧ c'.ordersSent = c.ordersSent)
    (hp : Leads Data.core R d.core p d) (h : Synced d) : EndsSynced p d := by
  have hkeep : ∀ c, ReflTransGen R d.core c →
      c.ordersLast = d.ordersLast ∧ c.ordersSent = d.ordersSent := by
    intro c hc
    induction hc with
    | refl => exact ⟨rfl, rfl⟩
    | tail _ hlast ih =>
        obtain ⟨hlast, hsent⟩ := hR _ _ hlast
        exact ⟨hlast.trans ih.1, hsent.trans ih.2⟩
  obtain ⟨hlast, hsent⟩ := hkeep _ hp
  refine .inr fun orderId => ?_
  rw [show (exec p d).2.ordersSent = d.ordersSent from hsent,
    show (exec p d).2.ordersLast = d.ordersLast from hlast]
  exact h orderId

theorem DoesFrom.endsSynced {world : World} {cause : Message}
    (hp : DoesFrom world cause d.core p d) (h : Synced d) : EndsSynced p d :=
  endsSynced_of_leads (fun _ _ hact => ⟨hact.unlisted.last, hact.unlisted.sent⟩) hp h

theorem Records.endsSynced (hp : Records p) (h : Synced d) : EndsSynced p d :=
  endsSynced_of_leads (fun _ _ hnote => ⟨hnote.unlisted.last, hnote.unlisted.sent⟩) (hp d) h

theorem Greets.endsSynced (hp : Greets p) (h : Synced d) : EndsSynced p d := by
  refine endsSynced_of_leads (fun c c' hgreet => ?_) (hp d) h
  cases hgreet with
  | note hnote => exact ⟨hnote.unlisted.last, hnote.unlisted.sent⟩
  | dropKey => exact ⟨rfl, rfl⟩
  | newKey _ => exact ⟨rfl, rfl⟩

end Rules

theorem endsSynced_syncOrderList (d : Data) : EndsSynced syncOrderList d := by
  obtain ⟨d', hexec, hsynced⟩ := exec_syncOrderList d
  refine .inr ?_
  rw [hexec]
  exact hsynced

/-- `add_order` only logs its failures. -/
theorem firm_addOrder (world : World) (fromNotification : Bool) (msg : OrderCreatedNotification) :
    Firm (addOrder world fromNotification msg) := by
  refine Firm.bind (firm_attempt _) fun _ => ?_
  split
  · exact Firm.bind (firm_attempt _) fun _ => firm_modify _
  · exact firm_modify _

theorem endsSynced_processOrderCreated (world : World) (msg : OrderCreatedNotification)
    (d : Data) : EndsSynced (processOrderCreated world msg) d :=
  (firm_addOrder world true msg).endsSynced fun _ => endsSynced_syncOrderList

theorem endsSynced_processOrderRemoved (orderId : OrderId) (d : Data) :
    EndsSynced (processOrderRemoved orderId) d :=
  (firm_modify _).endsSynced fun _ => endsSynced_syncOrderList

theorem endsSynced_processSubscribeResponse (world : World)
    (orders : List OrderCreatedNotification) (d : Data) :
    EndsSynced (processSubscribeResponse world orders) d :=
  (Firm.forM (firm_addOrder world false) orders).endsSynced fun _ => endsSynced_syncOrderList

theorem endsSynced_processUnsubscribeResponse (asset : Option AssetId) (d : Data) :
    EndsSynced (processUnsubscribeResponse asset) d :=
  (firm_modify _).endsSynced fun _ => endsSynced_syncOrderList

theorem endsSynced_processEditOrder (world : World) (req : EditOrder) (d : Data) :
    EndsSynced (processEditOrder world req) d := by
  refine (firm_ofPanic _).endsSynced fun orderId _ => (firm_ofPanic _).endsSynced fun _ _ => ?_
  refine (firm_attempt _).endsSynced fun res _ => ?_
  exact (firm_modify _).endsSynced fun _ => endsSynced_syncOrderList

/-- The orders of a login are added and shown, or the login fails first. -/
theorem endsSynced_loginOrders (world : World) {d : Data} (h : Synced d) :
    EndsSynced (loginOrders world) d := by
  have hrequest : EndsSynced (request world (.login d.sessionId) Response.login?) d :=
    Records.endsSynced (records_request world rfl _) h
  unfold loginOrders EndsSynced
  rw [exec_get_bind]
  refine hrequest.bind fun resp d' _ => ?_
  refine (Firm.forM (firm_addOrder world false) resp.orders).endsSynced fun _ d'' => ?_
  exact (endsSynced_syncOrderList d'').bind fun _ _ hsynced => .inr hsynced

theorem endsSynced_tryProcessWsConnected (world : World) {d : Data} (h : Synced d) :
    EndsSynced (tryProcessWsConnected world) d := by
  refine EndsSynced.bind (Records.endsSynced (records_request world rfl _) h) fun _ _ h => ?_
  refine EndsSynced.bind ((records_updateAssets world).endsSynced h) fun _ _ h => ?_
  refine EndsSynced.bind ((records_updateAmpAssets world).endsSynced h) fun _ _ h => ?_
  refine EndsSynced.bind ((records_updateServerStatus world).endsSynced h) fun _ _ h => ?_
  refine EndsSynced.bind ((greets_checkDeviceKey world).endsSynced h) fun _ _ h => ?_
  exact endsSynced_loginOrders world h

theorem endsSynced_processWsConnected (world : World) {d : Data} (h : Synced d) :
    EndsSynced (processWsConnected world) d := by
  refine EndsSynced.bind (endsSynced_tryProcessWsConnected world h).attempt fun res d' h => ?_
  match res with
  | .error _ =>
      have hdoes : DoesFrom world .serverConnected d'.core restartWebsocket d' :=
        does_restartWebsocket d'
      exact hdoes.endsSynced h
  | .ok _ => exact (connected_does world d').endsSynced h

theorem endsSynced_processWsDisconnected (d : Data) : EndsSynced processWsDisconnected d := by
  refine (firm_modify _).endsSynced fun _ d1 => ?_
  refine EndsSynced.bind (endsSynced_syncOrderList d1) fun _ d2 h2 => ?_
  refine EndsSynced.bind ((records_uiSend rfl).endsSynced h2) fun _ d3 h3 => ?_
  unfold EndsSynced
  rw [exec_get_bind, exec_modify_bind, exec_bind, exec_runCallbacks]
  show EndsSynced _ _
  unfold EndsSynced
  rw [exec_get_bind]
  split
  · exact .inr h3
  · exact .inr h3

theorem endsSynced_processMessage (world : World) (msg : Message) {d : Data} (h : Synced d) :
    EndsSynced (processMessage world msg) (d.emit (.received msg)) := by
  have h' : Synced (d.emit (.received msg)) := h
  cases hlist : msg.changesList with
  | false => exact DoesFrom.endsSynced (processMessage_does world hlist d) h'
  | true =>
      cases msg with
      | ui msg =>
          cases msg with
          | editOrder req => exact endsSynced_processEditOrder world req _
          | _ => cases hlist
      | serverConnected => exact endsSynced_processWsConnected world h'
      | serverDisconnected => exact endsSynced_processWsDisconnected _
      | serverNotification notif =>
          cases notif with
          | orderCreated order => exact endsSynced_processOrderCreated world order _
          | orderRemoved orderId => exact endsSynced_processOrderRemoved orderId _
          | _ => cases hlist
      | subscribe orders => exact endsSynced_processSubscribeResponse world orders _
      | unsubscribe asset => exact endsSynced_processUnsubscribeResponse asset _
      | _ => cases hlist

/-- A worker that goes on has not panicked. -/
theorem EndsSynced.finish {p : Handler Unit} {d : Data} (h : EndsSynced p d)
    (hs : (Client.finish p d).stopped = false) : Synced (Client.finish p d).data := by
  rw [finish_data]
  refine h.resolve_left ?_
  rintro ⟨e, he⟩
  unfold Client.finish at hs
  generalize exec p d = res at he hs
  obtain ⟨r, d'⟩ := res
  have hr : r = .error (.panic e) := he
  rw [hr] at hs
  cases hs

/-- The list is shown whenever a worker waits for its next message. -/
theorem reaches_synced {world : World} {ok : System → Message → Prop} {s : System}
    (h : Reaches world ok s) : s.stopped = false → Synced s.data := by
  refine Reach.invariant (I := fun s => s.stopped = false → Synced s.data) ?_ ?_ h
  · rintro s ⟨liquidAssetId, disableDeviceKey, settings, assets⟩
    refine EndsSynced.finish (Records.endsSynced ?_ fun orderId => rfl)
    exact Follows.bind (records_modify fun _ => rfl) fun _ => records_registerAssets assets false
  · intro s msg _ hsynced _ hs
    cases hstopped : s.stopped with
    | true =>
        rw [step_stopped world msg hstopped, hstopped] at hs
        cases hs
    | false =>
        have hstep : step world s msg =
            Client.finish (processMessage world msg) (s.data.emit (.received msg)) := by
          unfold step
          rw [if_neg (by rw [hstopped]; simp)]
        rw [hstep] at hs ⊢
        exact (endsSynced_processMessage world msg (hsynced hstopped)).finish hs

/-- **THE USER SEES THE WORKER'S LIST**: after every handler the list the worker
    has sent, and the list the order messages fold to, are the worker's list,
    and showing it once more says nothing.  An order is announced as new only
    while it is not on the list. -/
theorem order_list_shown {world : World} {s : System} (h : Reaches world (fun _ _ => True) s) :
    (s.stopped = false →
      s.data.ordersSent.Equiv s.data.ordersLast ∧
      (shownOrders s.data.log).Equiv s.data.ordersLast ∧
      exec syncOrderList s.data = (.ok (), s.data)) ∧
    History.Justified NewToUser s.data.log ∧
    ∀ d, exec syncOrderList (exec syncOrderList d).2 = (.ok (), (exec syncOrderList d).2) := by
  have htold := reaches_listTold h
  refine ⟨fun hs => ?_, htold.fresh, fun d => ?_⟩
  · have hsynced := reaches_synced h hs
    refine ⟨?_, ?_, exec_syncOrderList_again hsynced⟩
    · exact Std.TreeMap.Equiv.of_forall_constGet?_eq hsynced
    · refine Std.TreeMap.Equiv.of_forall_constGet?_eq fun orderId => ?_
      exact (htold.shown orderId).trans (hsynced orderId)
  · obtain ⟨d', hexec, hsynced⟩ := exec_syncOrderList d
    rw [hexec]
    exact exec_syncOrderList_again hsynced

namespace Sample

/-- The server lists somebody's order at a price. -/
def listed (orderId : OrderId) (price : ℚ) : OrderCreatedNotification where
  orderId := orderId
  details := { details .maker with price }
  createdAt := 0
  expiresAt := none
  twoStep := false
  own := none

/-- Two orders are listed; one gets a new price, the other is removed. -/
def repricing : List Message :=
  connecting ++ [.serverNotification (.orderCreated (listed order 2)),
    .serverNotification (.orderCreated (listed swapOrder 2)),
    .serverNotification (.orderCreated (listed order 3)),
    .serverNotification (.orderRemoved swapOrder)]

end Sample

/-- What the user sees in the end is the order at its new price. -/
theorem repriced_order_shown :
    let s := run (Sample.world .maker) Sample.bitcoin [Sample.asset] Sample.repricing
    s.stopped = false ∧
    (shownOrders s.data.log).toList.map (fun line => (line.1, line.2.price)) =
      [(Sample.order, 3)] ∧
    (shownOrders s.data.log).Equiv s.data.ordersLast := by
  intro s
  have hreach : Reaches (Sample.world .maker) (fun _ _ => True) s :=
    reaches_run ⟨trivial, trivial, trivial, trivial, trivial, trivial, trivial, trivial⟩
  have hs : s.stopped = false := by decide +kernel
  have hshown : (shownOrders s.data.log).toList.map (fun line => (line.1, line.2.price)) =
      [(Sample.order, 3)] := by decide +kernel
  clear_value s
  exact ⟨hs, hshown, ((order_list_shown hreach).1 hs).2.1⟩

end Client
