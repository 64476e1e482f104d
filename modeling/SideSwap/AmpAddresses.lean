import Mathlib.Tactic
import SideSwap.Api

/-! # The cache of AMP addresses

    `load_all_addresses` and `find_own_address_info` of
    `sideswap_client/src/worker.rs`.  The worker keeps the addresses of the AMP
    account in its settings.  An address that is not there is looked for in the
    pages GDK returns, newest first, down to the first page without news; what
    is new is added to the cache.

    GDK is a parameter.  Its requests are numbered, and the account may get new
    addresses between any two of them, so `addresses n` are those there are when
    request `n` is made.

    The loop is carried by one invariant (`Loaded`): what has been collected are
    the new addresses from the cursor upwards. -/

namespace AmpAddresses

open Api

/-! ## The model -/

/-- `AddressInfo`, with the fields that are read. -/
structure AddressInfo where
  address : Address
  pointer : Nat
deriving DecidableEq, Repr

/-- `PreviousAddresses`: a page, and the cursor of the next one. -/
structure PreviousAddresses where
  lastPointer : Option Nat
  list : List AddressInfo

/-- `AmpPrevAddrs`. -/
structure AmpPrevAddrs where
  lastPointer : Nat
  list : List AddressInfo
deriving DecidableEq, Repr

/-- The AMP session of GDK. -/
structure Gdk where
  /-- the addresses of the account when a request is made -/
  addresses : Nat → List AddressInfo
  /-- `GA_get_previous_addresses`, the answer to a request with a cursor -/
  page : Nat → Option Nat → Except String PreviousAddresses

/-- `get_previous_addresses`: the AMP account has no internal addresses. -/
def Gdk.getPreviousAddresses (gdk : Gdk) (n : Nat) (lastPointer : Option Nat) (isInternal : Bool) :
    Except String PreviousAddresses :=
  if isInternal then .ok ⟨some 0, []⟩ else gdk.page n lastPointer

/-- Whether an address is newer than the ones known. -/
def isNew (lastKnownPointer : Option Nat) (pointer : Nat) : Bool :=
  lastKnownPointer.elim true (· < pointer)

@[simp] theorem isNew_none (pointer : Nat) : isNew none pointer = true := rfl

@[simp] theorem isNew_some (known pointer : Nat) :
    isNew (some known) pointer = true ↔ known < pointer := decide_eq_true_iff

/-- The loop of `load_all_addresses` from request `n` on, with the number of the
    request after it; `none` if `fuel` rounds do not suffice. -/
def loadLoop (gdk : Gdk) (isInternal : Bool) (lastKnownPointer : Option Nat) :
    (fuel n : Nat) → (lastPointer : Option Nat) → (resultPointer : Nat) →
      (result : List AddressInfo) → Option (Nat × Except String (Nat × List AddressInfo))
  | 0, _, _, _, _ => none
  | fuel + 1, n, lastPointer, resultPointer, result =>
      match gdk.getPreviousAddresses n lastPointer isInternal with
      | .error e => some (n + 1, .error e)
      | .ok list =>
          let maxPointer := ((list.list.map (·.pointer)).max?).getD 0
          let resultPointer := max resultPointer maxPointer
          let newList := list.list.filter fun addr => isNew lastKnownPointer addr.pointer
          let result := result ++ newList
          if newList.isEmpty || list.lastPointer.isNone then
            if result.isEmpty then some (n + 1, .error "Condition failed: `!result.is_empty()`")
            else some (n + 1, .ok (resultPointer, result))
          else loadLoop gdk isInternal lastKnownPointer fuel (n + 1) list.lastPointer resultPointer
            result

/-- `load_all_addresses`. -/
def loadAllAddresses (gdk : Gdk) (fuel n : Nat) (isInternal : Bool)
    (lastKnownPointer : Option Nat) : Option (Nat × Except String (Nat × List AddressInfo)) :=
  loadLoop gdk isInternal lastKnownPointer fuel n none 0 []

/-- The cache, and the number of the next request. -/
structure State where
  ampPrevAddrs : Option AmpPrevAddrs
  clock : Nat

/-- A call of `find_own_address_info`: requests made since the last one, whether
    there is an AMP wallet, and the address. -/
structure Call where
  wait : Nat
  hasWallet : Bool
  address : Address

/-- The address in the cache. -/
def findCached (cache : Option AmpPrevAddrs) (address : Address) : Option AddressInfo :=
  cache.bind fun data => data.list.find? fun info => info.address == address

/-- The cache with what has been loaded. -/
def extendCache (cache : Option AmpPrevAddrs) (loaded : Nat × List AddressInfo) : AmpPrevAddrs :=
  { lastPointer := loaded.1
    list := (cache.elim [] (·.list)) ++ loaded.2 }

/-- `find_own_address_info`. -/
def findOwnAddressInfo (gdk : Gdk) (fuel : Nat) (call : Call) (s : State) :
    Option (Except String AddressInfo × State) :=
  let n := s.clock + call.wait
  match findCached s.ampPrevAddrs call.address with
  | some info => some (.ok info, { s with clock := n })
  | none =>
      if !call.hasWallet then some (.error "wallet not found", { s with clock := n })
      else
        match loadAllAddresses gdk fuel n false (s.ampPrevAddrs.map (·.lastPointer)) with
        | none => none
        | some (n', .error e) => some (.error e, { s with clock := n' })
        | some (n', .ok loaded) =>
            let cache := some (extendCache s.ampPrevAddrs loaded)
            let found := (findCached cache call.address).elim (.error "Not found") .ok
            some (found, ⟨cache, n'⟩)

/-- The states after any calls, those that fail included, of a worker without a
    cache. -/
inductive Reached (gdk : Gdk) : State → Prop where
  | start : Reached gdk ⟨none, 0⟩
  | call {s s' : State} {fuel : Nat} {call : Call} {res : Except String AddressInfo} :
      Reached gdk s → findOwnAddressInfo gdk fuel call s = some (res, s') → Reached gdk s'

/-! ## What GDK promises -/

/-- The pages are those of an account whose new addresses have larger pointers. -/
structure Gdk.Regular (gdk : Gdk) : Prop where
  distinct : ∀ n, ∀ a ∈ gdk.addresses n, ∀ b ∈ gdk.addresses n, a.pointer = b.pointer → a = b
  /-- addresses are only added -/
  kept : ∀ n, ∀ a ∈ gdk.addresses n, a ∈ gdk.addresses (n + 1)
  /-- with larger pointers -/
  larger : ∀ n, ∀ a ∈ gdk.addresses n, ∀ b ∈ gdk.addresses (n + 1), b ∉ gdk.addresses n →
    a.pointer < b.pointer
  descending : ∀ n cursor p, gdk.page n cursor = .ok p →
    p.list.Pairwise fun a b => b.pointer < a.pointer
  /-- a page has the addresses below the cursor, down to the next cursor -/
  listed : ∀ n cursor p, gdk.page n cursor = .ok p → ∀ a, a ∈ p.list ↔
    a ∈ gdk.addresses n ∧ (∀ c ∈ cursor, a.pointer < c) ∧ ∀ c ∈ p.lastPointer, c ≤ a.pointer
  smaller : ∀ n cursor p, gdk.page n cursor = .ok p → ∀ c ∈ cursor, ∀ c' ∈ p.lastPointer, c' < c
  /-- the next cursor is that of an entry of the page, so there is one -/
  nonempty : ∀ n cursor p, gdk.page n cursor = .ok p → p.lastPointer ≠ none → p.list ≠ []

/-- An address that is not above an earlier one has been there before. -/
theorem Gdk.Regular.earlier {gdk : Gdk} (h : gdk.Regular) {n m : Nat} (hnm : n ≤ m)
    {a b : AddressInfo} (ha : a ∈ gdk.addresses n) (hb : b ∈ gdk.addresses m)
    (hle : b.pointer ≤ a.pointer) : b ∈ gdk.addresses n := by
  induction hnm with
  | refl => exact hb
  | @step m hnm ih =>
      refine ih ?_
      have ham : a ∈ gdk.addresses m := by
        clear ih hb
        induction hnm with
        | refl => exact ha
        | step _ ih => exact h.kept _ _ ih
      by_contra hnew
      have hlt := h.larger m a ham b hb hnew
      omega

theorem Gdk.Regular.still {gdk : Gdk} (h : gdk.Regular) {n m : Nat} (hnm : n ≤ m)
    {a : AddressInfo} (ha : a ∈ gdk.addresses n) : a ∈ gdk.addresses m := by
  induction hnm with
  | refl => exact ha
  | step _ ih => exact h.kept _ _ ih

/-! ## Termination -/

/-- What a round of the loop does with a page. -/
theorem loadLoop_page {gdk : Gdk} {isInternal : Bool} {known cursor : Option Nat}
    {fuel n rp : Nat} {result : List AddressInfo} {p : PreviousAddresses}
    (hp : gdk.getPreviousAddresses n cursor isInternal = .ok p) :
    loadLoop gdk isInternal known (fuel + 1) n cursor rp result =
      if (p.list.filter fun a => isNew known a.pointer).isEmpty || p.lastPointer.isNone then
        if (result ++ p.list.filter fun a => isNew known a.pointer).isEmpty then
          some (n + 1, .error "Condition failed: `!result.is_empty()`")
        else
          some (n + 1, .ok (max rp (((p.list.map (·.pointer)).max?).getD 0),
            result ++ p.list.filter fun a => isNew known a.pointer))
      else
        loadLoop gdk isInternal known fuel (n + 1) p.lastPointer
          (max rp (((p.list.map (·.pointer)).max?).getD 0))
          (result ++ p.list.filter fun a => isNew known a.pointer) := by
  rw [loadLoop, hp]

/-- A page with entries has a smaller next cursor. -/
theorem Gdk.Regular.next_lt {gdk : Gdk} (h : gdk.Regular) {n : Nat} {cursor : Option Nat}
    {isInternal : Bool} {p : PreviousAddresses}
    (hp : gdk.getPreviousAddresses n cursor isInternal = .ok p) (hne : p.list ≠ []) :
    ∀ c ∈ cursor, ∀ c' ∈ p.lastPointer, c' < c := by
  unfold Gdk.getPreviousAddresses at hp
  cases isInternal with
  | true =>
      cases hp
      exact absurd rfl hne
  | false => exact h.smaller n cursor p hp

/-- A round ends the loop, or goes on with the next cursor of a page that has
    entries. -/
theorem loadLoop_round (gdk : Gdk) (isInternal : Bool) (known cursor : Option Nat) (n rp : Nat)
    (result : List AddressInfo) :
    (∃ r, ∀ fuel, loadLoop gdk isInternal known (fuel + 1) n cursor rp result = some r) ∨
      ∃ p c rp' result', gdk.getPreviousAddresses n cursor isInternal = .ok p ∧ p.list ≠ [] ∧
        p.lastPointer = some c ∧
        ∀ fuel, loadLoop gdk isInternal known (fuel + 1) n cursor rp result =
          loadLoop gdk isInternal known fuel (n + 1) (some c) rp' result' := by
  cases hp : gdk.getPreviousAddresses n cursor isInternal with
  | error e =>
      refine .inl ⟨(n + 1, .error e), ?_⟩
      intro fuel
      rw [loadLoop, hp]
  | ok p =>
      by_cases hstop : ((p.list.filter fun a => isNew known a.pointer).isEmpty ||
          p.lastPointer.isNone) = true
      · left
        by_cases hempty : (result ++ p.list.filter fun a => isNew known a.pointer).isEmpty = true
        · exact ⟨_, fun fuel => (loadLoop_page hp).trans ((if_pos hstop).trans (if_pos hempty))⟩
        · exact ⟨_, fun fuel => (loadLoop_page hp).trans ((if_pos hstop).trans (if_neg hempty))⟩
      · right
        have hnot := hstop
        simp only [Bool.or_eq_true, not_or, List.isEmpty_iff, Option.isNone_iff_eq_none] at hnot
        obtain ⟨c, hc⟩ := Option.ne_none_iff_exists'.mp hnot.2
        have hne : p.list ≠ [] := by
          intro hnil
          rw [hnil] at hnot
          exact hnot.1 rfl
        refine ⟨p, c, max rp (((p.list.map (·.pointer)).max?).getD 0),
          result ++ p.list.filter fun a => isNew known a.pointer, rfl, hne, hc, ?_⟩
        intro fuel
        rw [loadLoop_page hp, if_neg hstop, hc]

/-- With a cursor, each round lowers it. -/
theorem loadLoop_terminates {gdk : Gdk} (h : gdk.Regular) (isInternal : Bool)
    (known : Option Nat) : ∀ (fuel n c rp : Nat) (result : List AddressInfo), c < fuel →
    ∃ r, loadLoop gdk isInternal known fuel n (some c) rp result = some r := by
  intro fuel
  induction fuel with
  | zero =>
      intro n c rp result hc
      exact absurd hc (Nat.not_lt_zero c)
  | succ fuel ih =>
      intro n c rp result hc
      rcases loadLoop_round gdk isInternal known (some c) n rp result with
        ⟨r, hr⟩ | ⟨p, c', rp', result', hp, hne, hnext, hround⟩
      · exact ⟨r, hr fuel⟩
      · have hlt := h.next_lt hp hne c rfl c' hnext
        obtain ⟨r, hr⟩ := ih (n + 1) c' rp' result' (by omega)
        exact ⟨r, (hround fuel).trans hr⟩

/-- **TERMINATION**: some number of rounds is enough. -/
theorem loadAllAddresses_terminates {gdk : Gdk} (h : gdk.Regular) (n : Nat) (isInternal : Bool)
    (known : Option Nat) : ∃ fuel r, loadAllAddresses gdk fuel n isInternal known = some r := by
  rcases loadLoop_round gdk isInternal known none n 0 [] with
    ⟨r, hr⟩ | ⟨p, c, rp', result', _, _, _, hround⟩
  · exact ⟨1, r, hr 0⟩
  · obtain ⟨r, hr⟩ := loadLoop_terminates h isInternal known (c + 1) (n + 1) c rp' result'
      (Nat.lt_succ_self c)
    exact ⟨c + 2, r, (hround (c + 1)).trans hr⟩

/-! ## What the loop collects -/

/-- The largest pointer of a page, or zero. -/
theorem max_pointer (l : List AddressInfo) :
    (∀ a ∈ l, a.pointer ≤ ((l.map (·.pointer)).max?).getD 0) ∧
      (l ≠ [] → ∃ a ∈ l, a.pointer = ((l.map (·.pointer)).max?).getD 0) := by
  cases hmax : (l.map (·.pointer)).max? with
  | none =>
      rw [List.max?_eq_none_iff, List.map_eq_nil_iff] at hmax
      subst hmax
      exact ⟨fun _ h => (nomatch h), fun h => absurd rfl h⟩
  | some m =>
      obtain ⟨hmem, hle⟩ := List.max?_eq_some_iff.mp hmax
      constructor
      · intro a ha
        exact hle _ (List.mem_map_of_mem ha)
      · intro _
        obtain ⟨a, ha, heq⟩ := List.mem_map.mp hmem
        exact ⟨a, ha, heq⟩

section Loop

variable {gdk : Gdk} {start : Nat} {known : Option Nat}

/-- The newest address there was at the start has this pointer. -/
def Newest (gdk : Gdk) (start pointer : Nat) : Prop :=
  (∃ a ∈ gdk.addresses start, a.pointer = pointer) ∧
    ∀ a ∈ gdk.addresses start, a.pointer ≤ pointer

/-- **INVARIANT**: the new ones of the addresses at the start, from the cursor
    upwards, have been collected. -/
structure Loaded (gdk : Gdk) (start : Nat) (known : Option Nat) (n : Nat) (cursor : Option Nat)
    (rp : Nat) (result : List AddressInfo) : Prop where
  later : start ≤ n
  collected : ∀ a, a ∈ result ↔
    a ∈ gdk.addresses start ∧ isNew known a.pointer = true ∧ ∃ c ∈ cursor, c ≤ a.pointer
  distinct : result.Pairwise fun a b => b.pointer < a.pointer
  /-- before the first page -/
  first : cursor = none → n = start ∧ rp = 0
  /-- after it -/
  newest : ∀ c ∈ cursor, Newest gdk start rp ∧ c ≤ rp

/-- What a loop that ends has found. -/
def Found (gdk : Gdk) (start : Nat) (known : Option Nat) :
    Except String (Nat × List AddressInfo) → Prop
  | .ok (rp, result) =>
      (∀ a, a ∈ result ↔ a ∈ gdk.addresses start ∧ isNew known a.pointer = true) ∧
        (result.Pairwise fun a b => b.pointer < a.pointer) ∧ Newest gdk start rp
  | .error _ =>
      (∃ n cursor e, start ≤ n ∧ gdk.page n cursor = .error e) ∨
        ∀ a ∈ gdk.addresses start, isNew known a.pointer = false

/-- A page shows addresses that were there at the start. -/
theorem Loaded.mem_page (h : gdk.Regular) {n : Nat} {cursor : Option Nat} {rp : Nat}
    {result : List AddressInfo} (hI : Loaded gdk start known n cursor rp result)
    {p : PreviousAddresses} (hp : gdk.page n cursor = .ok p) (a : AddressInfo) :
    a ∈ p.list ↔ a ∈ gdk.addresses start ∧ (∀ c ∈ cursor, a.pointer < c) ∧
      ∀ c ∈ p.lastPointer, c ≤ a.pointer := by
  rw [h.listed n cursor p hp a]
  refine and_congr_left ?_
  rintro ⟨hbelow, -⟩
  cases cursor with
  | none => rw [(hI.first rfl).1]
  | some c =>
      constructor
      · intro ha
        -- it is below the cursor, hence below the newest one at the start
        obtain ⟨⟨⟨newest, hnewest, hpointer⟩, -⟩, hle⟩ := hI.newest c rfl
        have hlt := hbelow c rfl
        exact h.earlier hI.later hnewest ha (by omega)
      · intro ha
        exact h.still hI.later ha

/-- The collected addresses after a page. -/
theorem Loaded.mem_append (h : gdk.Regular) {n : Nat} {cursor : Option Nat} {rp : Nat}
    {result : List AddressInfo} (hI : Loaded gdk start known n cursor rp result)
    {p : PreviousAddresses} (hp : gdk.page n cursor = .ok p) (a : AddressInfo) :
    a ∈ (result ++ p.list.filter fun a => isNew known a.pointer) ↔
      a ∈ gdk.addresses start ∧ isNew known a.pointer = true ∧
        ((∃ c ∈ cursor, c ≤ a.pointer) ∨
          (∀ c ∈ cursor, a.pointer < c) ∧ ∀ c ∈ p.lastPointer, c ≤ a.pointer) := by
  rw [List.mem_append, List.mem_filter, hI.collected, hI.mem_page h hp]
  constructor
  · rintro (⟨ha, hnew, habove⟩ | ⟨⟨ha, hpage⟩, hnew⟩)
    · exact ⟨ha, hnew, .inl habove⟩
    · exact ⟨ha, hnew, .inr hpage⟩
  · rintro ⟨ha, hnew, habove | hpage⟩
    · exact .inl ⟨ha, hnew, habove⟩
    · exact .inr ⟨⟨ha, hpage⟩, hnew⟩

/-- No address is collected twice: a page is below what has been collected. -/
theorem Loaded.distinct_append (h : gdk.Regular) {n : Nat} {cursor : Option Nat} {rp : Nat}
    {result : List AddressInfo} (hI : Loaded gdk start known n cursor rp result)
    {p : PreviousAddresses} (hp : gdk.page n cursor = .ok p) :
    (result ++ p.list.filter fun a => isNew known a.pointer).Pairwise
      fun a b => b.pointer < a.pointer := by
  rw [List.pairwise_append]
  refine ⟨hI.distinct, (h.descending n cursor p hp).filter _, ?_⟩
  intro a ha b hb
  obtain ⟨-, -, c, hc, hle⟩ := (hI.collected a).mp ha
  have hlt := ((hI.mem_page h hp b).mp (List.mem_filter.mp hb).1).2.1 c hc
  omega

/-- The largest pointer seen is that of the newest address, once a page with
    entries has been seen. -/
theorem Loaded.newest_max (h : gdk.Regular) {n : Nat} {cursor : Option Nat} {rp : Nat}
    {result : List AddressInfo} (hI : Loaded gdk start known n cursor rp result)
    {p : PreviousAddresses} (hp : gdk.page n cursor = .ok p) (hne : cursor = none → p.list ≠ []) :
    Newest gdk start (max rp (((p.list.map (·.pointer)).max?).getD 0)) := by
  obtain ⟨hle, hattained⟩ := max_pointer p.list
  cases cursor with
  | none =>
      obtain ⟨top, htop, hpointer⟩ := hattained (hne rfl)
      have htop' := (hI.mem_page h hp top).mp htop
      rw [(hI.first rfl).2, Nat.zero_max]
      refine ⟨⟨top, htop'.1, hpointer⟩, ?_⟩
      intro a ha
      by_cases hfrom : ∀ c ∈ p.lastPointer, c ≤ a.pointer
      · exact hle a ((hI.mem_page h hp a).mpr ⟨ha, fun _ hc => (nomatch hc), hfrom⟩)
      · -- below the page
        push Not at hfrom
        obtain ⟨c, hc, hlt⟩ := hfrom
        have hge := htop'.2.2 c hc
        omega
  | some c =>
      obtain ⟨hnewest, hc⟩ := hI.newest c rfl
      have hmax : ((p.list.map (·.pointer)).max?).getD 0 ≤ rp := by
        by_cases hnil : p.list = []
        · rw [hnil]
          exact Nat.zero_le _
        · obtain ⟨top, htop, hpointer⟩ := hattained hnil
          have hlt := ((hI.mem_page h hp top).mp htop).2.1 c rfl
          omega
      rw [max_eq_left hmax]
      exact hnewest

/-- A page with news and a next cursor keeps the invariant. -/
theorem Loaded.next (h : gdk.Regular) {n : Nat} {cursor : Option Nat} {rp : Nat}
    {result : List AddressInfo} (hI : Loaded gdk start known n cursor rp result)
    {p : PreviousAddresses} (hp : gdk.page n cursor = .ok p) {c : Nat}
    (hnext : p.lastPointer = some c) :
    Loaded gdk start known (n + 1) (some c) (max rp (((p.list.map (·.pointer)).max?).getD 0))
      (result ++ p.list.filter fun a => isNew known a.pointer) := by
  have hne : p.list ≠ [] := h.nonempty n cursor p hp (by rw [hnext]; exact Option.some_ne_none c)
  refine ⟨Nat.le_succ_of_le hI.later, ?_, hI.distinct_append h hp, (nomatch ·), ?_⟩
  · intro a
    rw [hI.mem_append h hp, hnext]
    refine and_congr_right fun _ => and_congr_right fun _ => ?_
    constructor
    · rintro (⟨c₀, hc₀, hle⟩ | ⟨-, hfrom⟩)
      · have hlt := h.smaller n cursor p hp c₀ hc₀ c hnext
        exact ⟨c, rfl, by omega⟩
      · exact ⟨c, rfl, hfrom c rfl⟩
    · rintro ⟨c', hc', hle⟩
      cases hc'
      by_cases habove : ∃ c₀ ∈ cursor, c₀ ≤ a.pointer
      · exact .inl habove
      · refine .inr ⟨?_, ?_⟩
        · intro c₀ hc₀
          by_contra hnot
          exact habove ⟨c₀, hc₀, by omega⟩
        · intro c' hc'
          cases hc'
          exact hle
  · intro c' hc'
    cases hc'
    refine ⟨hI.newest_max h hp fun _ => hne, ?_⟩
    obtain ⟨a, ha⟩ := List.exists_mem_of_ne_nil _ hne
    have hge := ((hI.mem_page h hp a).mp ha).2.2 c hnext
    have hle := (max_pointer p.list).1 a ha
    omega

/-- The last page completes what has been collected: it is the end of the
    account, or has no news, and then there are none below it. -/
theorem Loaded.last (h : gdk.Regular) {n : Nat} {cursor : Option Nat} {rp : Nat}
    {result : List AddressInfo} (hI : Loaded gdk start known n cursor rp result)
    {p : PreviousAddresses} (hp : gdk.page n cursor = .ok p)
    (hstop : (p.list.filter fun a => isNew known a.pointer) = [] ∨ p.lastPointer = none)
    (a : AddressInfo) :
    a ∈ (result ++ p.list.filter fun a => isNew known a.pointer) ↔
      a ∈ gdk.addresses start ∧ isNew known a.pointer = true := by
  rw [hI.mem_append h hp]
  refine and_congr_right fun ha => and_iff_left_of_imp fun hnew => ?_
  by_cases habove : ∃ c ∈ cursor, c ≤ a.pointer
  · exact .inl habove
  · have hbelow : ∀ c ∈ cursor, a.pointer < c := by
      intro c hc
      by_contra hnot
      exact habove ⟨c, hc, by omega⟩
    refine .inr ⟨hbelow, ?_⟩
    rcases hstop with hnone | hend
    · intro c hc
      by_contra hlt
      -- the page has an entry above, which is known, so this address is known too
      have hne : p.list ≠ [] := h.nonempty n cursor p hp (by rw [hc]; exact Option.some_ne_none c)
      obtain ⟨b, hb⟩ := List.exists_mem_of_ne_nil _ hne
      have hge := ((hI.mem_page h hp b).mp hb).2.2 c hc
      have hold : isNew known b.pointer = false := by
        have hnot := List.filter_eq_nil_iff.mp hnone b hb
        exact Bool.eq_false_of_not_eq_true hnot
      cases known with
      | none => exact nomatch hold
      | some k =>
          have hk' : k < a.pointer := (isNew_some k _).mp hnew
          have hk : isNew (some k) b.pointer = true := (isNew_some k _).mpr (by omega)
          rw [hold] at hk
          exact nomatch hk
    · intro c hc
      rw [hend] at hc
      exact nomatch hc

/-- **LOOP**: a loop that ends has found all that is new. -/
theorem loadLoop_found (h : gdk.Regular) : ∀ (fuel n : Nat) (cursor : Option Nat) (rp : Nat)
    (result : List AddressInfo) (n' : Nat) (r : Except String (Nat × List AddressInfo)),
    Loaded gdk start known n cursor rp result →
    loadLoop gdk false known fuel n cursor rp result = some (n', r) →
    start ≤ n' ∧ Found gdk start known r := by
  intro fuel
  induction fuel with
  | zero =>
      intro n cursor rp result n' r _ hloop
      exact nomatch hloop
  | succ fuel ih =>
      intro n cursor rp result n' r hI hloop
      have hlater := hI.later
      cases hp : gdk.page n cursor with
      | error e =>
          have hget : gdk.getPreviousAddresses n cursor false = .error e := hp
          rw [loadLoop, hget] at hloop
          cases hloop
          exact ⟨by omega, .inl ⟨n, cursor, e, hlater, hp⟩⟩
      | ok p =>
          have hget : gdk.getPreviousAddresses n cursor false = .ok p := hp
          rw [loadLoop_page hget] at hloop
          split at hloop
          · next hstop =>
              rw [Bool.or_eq_true, List.isEmpty_iff, Option.isNone_iff_eq_none] at hstop
              have hall := hI.last h hp hstop
              split at hloop
              · next hempty =>
                  cases hloop
                  refine ⟨by omega, .inr ?_⟩
                  intro a ha
                  by_contra hnew
                  have hmem := (hall a).mpr ⟨ha, Bool.eq_true_of_not_eq_false hnew⟩
                  rw [List.isEmpty_iff.mp hempty] at hmem
                  exact nomatch hmem
              · next hsome =>
                  cases hloop
                  refine ⟨by omega, hall, hI.distinct_append h hp, hI.newest_max h hp ?_⟩
                  intro hfirst hnil
                  -- nothing has been collected before the first page
                  have hres : result = [] := by
                    refine List.eq_nil_iff_forall_not_mem.mpr fun a ha => ?_
                    obtain ⟨-, -, c, hc, -⟩ := (hI.collected a).mp ha
                    rw [hfirst] at hc
                    exact nomatch hc
                  rw [hres, hnil] at hsome
                  exact hsome rfl
          · next hgo =>
              simp only [Bool.or_eq_true, not_or, Option.isNone_iff_eq_none] at hgo
              obtain ⟨c, hc⟩ := Option.ne_none_iff_exists'.mp hgo.2
              rw [hc] at hloop
              exact ih (n + 1) (some c) _ _ n' r (hI.next h hp hc) hloop

/-- `load_all_addresses` finds all that is new. -/
theorem loadAllAddresses_found (h : gdk.Regular) {fuel n' : Nat}
    {r : Except String (Nat × List AddressInfo)}
    (hload : loadAllAddresses gdk fuel start false known = some (n', r)) :
    start ≤ n' ∧ Found gdk start known r := by
  refine loadLoop_found h fuel start none 0 [] n' r ?_ hload
  refine ⟨le_rfl, ?_, .nil, fun _ => ⟨rfl, rfl⟩, fun _ hc => (nomatch hc)⟩
  intro a
  constructor
  · intro ha
    exact nomatch ha
  · rintro ⟨-, -, c, hc, -⟩
    exact nomatch hc

end Loop

/-! ## The cache -/

section Cache

variable {gdk : Gdk}

/-- The cache has the addresses up to its pointer, each of them once, and no
    others. -/
def State.Complete (gdk : Gdk) (s : State) : Prop :=
  ∀ cache ∈ s.ampPrevAddrs, (cache.list.map (·.pointer)).Nodup ∧
    ∀ a, a ∈ cache.list ↔ a ∈ gdk.addresses s.clock ∧ a.pointer ≤ cache.lastPointer

/-- **INVARIANT**: the cache is complete, and its pointer is one of its
    addresses'. -/
structure Sound (gdk : Gdk) (s : State) : Prop where
  complete : s.Complete gdk
  attained : ∀ cache ∈ s.ampPrevAddrs, ∃ a ∈ cache.list, a.pointer = cache.lastPointer

/-- New addresses do not make a cache incomplete. -/
theorem Sound.wait (h : gdk.Regular) {s : State} (hI : Sound gdk s) {n : Nat} (hn : s.clock ≤ n) :
    Sound gdk { s with clock := n } := by
  refine ⟨?_, hI.attained⟩
  intro cache hcache
  obtain ⟨hnodup, hmem⟩ := hI.complete cache hcache
  refine ⟨hnodup, ?_⟩
  intro a
  rw [hmem]
  refine and_congr_left fun hle => ?_
  constructor
  · intro ha
    exact h.still hn ha
  · intro ha
    obtain ⟨top, htop, hpointer⟩ := hI.attained cache hcache
    exact h.earlier hn ((hmem top).mp htop).1 ha (by omega)

/-- What has been loaded makes the cache complete again. -/
theorem Sound.extend {s : State} (hI : Sound gdk s) {rp : Nat} {result : List AddressInfo}
    (hfound : Found gdk s.clock (s.ampPrevAddrs.map (·.lastPointer)) (.ok (rp, result))) :
    Sound gdk ⟨some (extendCache s.ampPrevAddrs (rp, result)), s.clock⟩ := by
  obtain ⟨hresult, hdesc, ⟨top, htop, hpointer⟩, hnewest⟩ := hfound
  have hdescmap : (result.map (·.pointer)).Nodup := by
    rw [List.nodup_iff_pairwise_ne, List.pairwise_map]
    exact hdesc.imp fun hlt => by omega
  -- the cache and the loaded addresses are the addresses there are
  have hmem : ∀ a, a ∈ (extendCache s.ampPrevAddrs (rp, result)).list ↔
      a ∈ gdk.addresses s.clock := by
    intro a
    show a ∈ s.ampPrevAddrs.elim [] (·.list) ++ result ↔ _
    rw [List.mem_append, hresult]
    cases hcache : s.ampPrevAddrs with
    | none =>
        constructor
        · rintro (hnil | ⟨ha, -⟩)
          · exact nomatch hnil
          · exact ha
        · intro ha
          exact .inr ⟨ha, rfl⟩
    | some cache =>
        obtain ⟨-, hold⟩ := hI.complete cache hcache
        rw [Option.elim_some, hold]
        constructor
        · rintro (⟨ha, -⟩ | ⟨ha, -⟩)
          · exact ha
          · exact ha
        · intro ha
          by_cases hle : a.pointer ≤ cache.lastPointer
          · exact .inl ⟨ha, hle⟩
          · exact .inr ⟨ha, (isNew_some cache.lastPointer a.pointer).mpr (by omega)⟩
  refine ⟨?_, ?_⟩
  · intro cache hcache
    cases hcache
    constructor
    · show ((s.ampPrevAddrs.elim [] (·.list) ++ result).map (·.pointer)).Nodup
      cases hcache : s.ampPrevAddrs with
      | none => exact hdescmap
      | some cache =>
          obtain ⟨hnodup, hold⟩ := hI.complete cache hcache
          rw [Option.elim_some, List.map_append]
          refine hnodup.append hdescmap ?_
          intro pointer hpold hpnew
          obtain ⟨a, ha, rfl⟩ := List.mem_map.mp hpold
          obtain ⟨b, hb, heq⟩ := List.mem_map.mp hpnew
          have hle := ((hold a).mp ha).2
          have hnew := ((hresult b).mp hb).2
          rw [hcache] at hnew
          have hlt : cache.lastPointer < b.pointer := (isNew_some _ _).mp hnew
          omega
    · intro a
      rw [hmem]
      exact ⟨fun ha => ⟨ha, hnewest a ha⟩, fun ha => ha.1⟩
  · intro cache hcache
    cases hcache
    exact ⟨top, (hmem top).mpr htop, hpointer⟩

/-- What a call does to the state. -/
theorem findOwnAddressInfo_sound (h : gdk.Regular) {fuel : Nat} {call : Call} {s s' : State}
    {res : Except String AddressInfo} (hI : Sound gdk s)
    (hcall : findOwnAddressInfo gdk fuel call s = some (res, s')) : Sound gdk s' := by
  have hwait : Sound gdk { s with clock := s.clock + call.wait } := hI.wait h (by omega)
  unfold findOwnAddressInfo at hcall
  dsimp only at hcall
  split at hcall
  · cases hcall
    exact hwait
  · split at hcall
    · cases hcall
      exact hwait
    · split at hcall
      · exact nomatch hcall
      · next n' e hload =>
          cases hcall
          exact hI.wait h ((Nat.le_add_right _ _).trans (loadAllAddresses_found h hload).1)
      · next n' loaded hload =>
          cases hcall
          obtain ⟨hlater, hfound⟩ := loadAllAddresses_found h hload
          exact (hwait.extend hfound).wait h hlater

theorem reached_sound (h : gdk.Regular) {s : State} (hs : Reached gdk s) : Sound gdk s := by
  induction hs with
  | start => exact ⟨fun _ hcache => (nomatch hcache), fun _ hcache => (nomatch hcache)⟩
  | call _ hcall ih => exact findOwnAddressInfo_sound h ih hcall

/-- An address of a cache is found in it. -/
theorem findCached_some {cache : AmpPrevAddrs} {a : AddressInfo} (ha : a ∈ cache.list) :
    ∃ found ∈ cache.list, findCached (some cache) a.address = some found ∧
      found.address = a.address := by
  cases hfind : cache.list.find? fun info => info.address == a.address with
  | none =>
      have hnot := List.find?_eq_none.mp hfind a ha
      exact absurd (beq_self_eq_true a.address) hnot
  | some found =>
      have haddress := List.find?_some hfind
      exact ⟨found, List.mem_of_find?_eq_some hfind, hfind, eq_of_beq haddress⟩

/-- What is found in the cache is an address of the account. -/
theorem Sound.cached {s : State} (hI : Sound gdk s) {address : Address} {found : AddressInfo}
    (hfound : findCached s.ampPrevAddrs address = some found) :
    found.address = address ∧ found ∈ gdk.addresses s.clock := by
  cases hcache : s.ampPrevAddrs with
  | none =>
      rw [hcache] at hfound
      exact nomatch hfound
  | some cache =>
      rw [hcache] at hfound
      have hfind : cache.list.find? (fun info => info.address == address) = some found := hfound
      have haddress := List.find?_some hfind
      refine ⟨eq_of_beq haddress, ?_⟩
      exact (((hI.complete cache hcache).2 found).mp (List.mem_of_find?_eq_some hfind)).1

/-- An address that is not in the cache is newer than it. -/
theorem Sound.isNew_of_not_cached {s : State} (hI : Sound gdk s) {a : AddressInfo}
    (ha : a ∈ gdk.addresses s.clock) (hnot : findCached s.ampPrevAddrs a.address = none) :
    isNew (s.ampPrevAddrs.map (·.lastPointer)) a.pointer = true := by
  cases hcache : s.ampPrevAddrs with
  | none => rfl
  | some cache =>
      rw [hcache] at hnot
      refine (isNew_some cache.lastPointer a.pointer).mpr ?_
      by_contra hle
      obtain ⟨found, -, hfound, -⟩ :=
        findCached_some (((hI.complete cache hcache).2 a).mpr ⟨ha, by omega⟩)
      rw [hnot] at hfound
      exact nomatch hfound

/-- A call for an address of the account finds it, when GDK answers. -/
theorem findOwnAddressInfo_finds (h : gdk.Regular) {fuel : Nat} {call : Call} {s s' : State}
    {res : Except String AddressInfo} (hI : Sound gdk s)
    (hcall : findOwnAddressInfo gdk fuel call s = some (res, s')) (hwallet : call.hasWallet = true)
    (hpages : ∀ n cursor, s.clock + call.wait ≤ n → ∃ p, gdk.page n cursor = .ok p)
    {a : AddressInfo} (ha : a ∈ gdk.addresses (s.clock + call.wait))
    (haddress : a.address = call.address) :
    ∃ found, res = .ok found ∧ found.address = call.address ∧
      found ∈ gdk.addresses (s.clock + call.wait) := by
  have hwait : Sound gdk { s with clock := s.clock + call.wait } := hI.wait h (by omega)
  unfold findOwnAddressInfo at hcall
  dsimp only at hcall
  split at hcall
  · next found hcached =>
      cases hcall
      exact ⟨found, rfl, hwait.cached hcached⟩
  · next hnot =>
      rw [← haddress] at hnot
      have hnew := hwait.isNew_of_not_cached ha hnot
      rw [hwallet, Bool.not_true, if_neg Bool.false_ne_true] at hcall
      split at hcall
      · exact nomatch hcall
      · next n' e hload =>
          -- the loop fails only if GDK does, or if nothing is new
          obtain ⟨-, hfound⟩ := loadAllAddresses_found h hload
          rcases hfound with ⟨m, cursor, e', hm, hpage⟩ | hnone
          · obtain ⟨p, hp⟩ := hpages m cursor hm
            rw [hpage] at hp
            exact nomatch hp
          · have hold := hnone a ha
            rw [hnew] at hold
            exact nomatch hold
      · next n' loaded hload =>
          obtain ⟨-, hfound⟩ := loadAllAddresses_found h hload
          have hsound := hwait.extend hfound
          have hmem : a ∈ (extendCache s.ampPrevAddrs loaded).list := by
            refine List.mem_append_right _ ((hfound.1 a).mpr ⟨ha, hnew⟩)
          obtain ⟨found, -, hcached, -⟩ := findCached_some hmem
          rw [haddress] at hcached
          rw [hcached] at hcall
          cases hcall
          exact ⟨found, rfl, hsound.cached hcached⟩

end Cache

/-- **THE CACHE IS COMPLETE**: the pages are read to an end; whatever calls have
    been made and however they have ended, the cache has each address up to its
    pointer once and no other; and a call for an address of the account returns
    it, if there is a wallet and GDK answers. -/
theorem address_cache_complete (gdk : Gdk) (h : gdk.Regular) :
    (∀ (n : Nat) (isInternal : Bool) (known : Option Nat),
      ∃ fuel r, loadAllAddresses gdk fuel n isInternal known = some r) ∧
    ∀ s, Reached gdk s → s.Complete gdk ∧
      ∀ call : Call, (∃ fuel r, findOwnAddressInfo gdk fuel call s = some r) ∧
        ∀ fuel res s', findOwnAddressInfo gdk fuel call s = some (res, s') →
          call.hasWallet = true →
          (∀ n cursor, s.clock + call.wait ≤ n → ∃ p, gdk.page n cursor = .ok p) →
          ∀ a ∈ gdk.addresses (s.clock + call.wait), a.address = call.address →
            ∃ found, res = .ok found ∧ found.address = call.address ∧
              found ∈ gdk.addresses (s.clock + call.wait) := by
  refine ⟨fun n isInternal known => loadAllAddresses_terminates h n isInternal known, ?_⟩
  intro s hs
  have hI := reached_sound h hs
  refine ⟨hI.complete, ?_⟩
  intro call
  constructor
  · obtain ⟨fuel, ⟨n', r⟩, hload⟩ := loadAllAddresses_terminates h (s.clock + call.wait) false
      (s.ampPrevAddrs.map (·.lastPointer))
    refine ⟨fuel, ?_⟩
    unfold findOwnAddressInfo
    dsimp only
    rw [hload]
    split
    · exact ⟨_, rfl⟩
    · split
      · exact ⟨_, rfl⟩
      · cases r with
        | error e => exact ⟨_, rfl⟩
        | ok loaded => exact ⟨_, rfl⟩
  · intro fuel res s' hcall hwallet hpages a ha haddress
    exact findOwnAddressInfo_finds h hI hcall hwallet hpages ha haddress

/-! ## A session that pages through a list -/

/-- The first entries below the cursor, of a list with the newest address first;
    the last of them is the next cursor if there are more. -/
def pageOf (size : Nat) (addresses : List AddressInfo) (cursor : Option Nat) : PreviousAddresses :=
  let below := addresses.filter fun a => cursor.elim true (a.pointer < ·)
  { lastPointer :=
      if below.length ≤ size then none else (below.take size).getLast?.map (·.pointer)
    list := below.take size }

theorem mem_below {addresses : List AddressInfo} {cursor : Option Nat} {a : AddressInfo} :
    (a ∈ addresses.filter fun a => cursor.elim true (a.pointer < ·)) ↔
      a ∈ addresses ∧ ∀ c ∈ cursor, a.pointer < c := by
  rw [List.mem_filter]
  refine and_congr_right fun _ => ?_
  cases cursor with
  | none => exact ⟨fun _ c hc => (nomatch hc), fun _ => rfl⟩
  | some c =>
      constructor
      · intro h c' hc'
        cases hc'
        exact of_decide_eq_true h
      · intro h
        exact decide_eq_true (h c rfl)

/-- The entries of a page are those from its last one upwards. -/
theorem mem_take_iff {below : List AddressInfo} (hdesc : below.Pairwise fun a b => b.pointer < a.pointer)
    {size : Nat} {last : AddressInfo} (hlast : (below.take size).getLast? = some last)
    {a : AddressInfo} : a ∈ below.take size ↔ a ∈ below ∧ last.pointer ≤ a.pointer := by
  have hsplit := List.dropLast_append_getLast? last hlast
  have htake : (below.take size).Pairwise fun a b => b.pointer < a.pointer :=
    hdesc.sublist (List.take_sublist size below)
  constructor
  · intro ha
    refine ⟨(List.take_sublist size below).subset ha, ?_⟩
    rw [← hsplit] at ha htake
    rcases List.mem_append.mp ha with hfront | hend
    · exact ((List.pairwise_append.mp htake).2.2 a hfront last (List.mem_singleton.mpr rfl)).le
    · rw [List.mem_singleton.mp hend]
  · rintro ⟨ha, hle⟩
    rw [← List.take_append_drop size below] at ha hdesc
    rcases List.mem_append.mp ha with htaken | hdropped
    · exact htaken
    · have hmem : last ∈ below.take size := by
        rw [← hsplit]
        exact List.mem_append_right _ (List.mem_singleton.mpr rfl)
      have hlt := (List.pairwise_append.mp hdesc).2.2 last hmem a hdropped
      omega

/-- The next cursor of a page, when there is one. -/
theorem pageOf_next {size : Nat} {addresses : List AddressInfo} {cursor : Option Nat} {c : Nat}
    (h : (pageOf size addresses cursor).lastPointer = some c) :
    ∃ last, (pageOf size addresses cursor).list.getLast? = some last ∧ last.pointer = c := by
  change (if _ then none else
    (pageOf size addresses cursor).list.getLast?.map AddressInfo.pointer) = some c at h
  split at h
  · exact nomatch h
  · exact Option.map_eq_some_iff.mp h

/-- A page without a next cursor has all that is below its own. -/
theorem pageOf_end {size : Nat} (hsize : 0 < size) {addresses : List AddressInfo}
    {cursor : Option Nat} (h : (pageOf size addresses cursor).lastPointer = none) :
    (pageOf size addresses cursor).list =
      addresses.filter fun a => cursor.elim true (a.pointer < ·) := by
  refine List.take_of_length_le ?_
  by_contra hlong
  change (if _ then none else
    (pageOf size addresses cursor).list.getLast?.map AddressInfo.pointer) = none at h
  rw [if_neg hlong, Option.map_eq_none_iff, List.getLast?_eq_none_iff] at h
  rcases List.take_eq_nil_iff.mp h with hzero | hnil
  · omega
  · rw [hnil] at hlong
    exact hlong (Nat.zero_le _)

/-- Such a session is regular. -/
theorem regular_pageOf {addresses : Nat → List AddressInfo} {size : Nat} (hsize : 0 < size)
    (hdesc : ∀ n, (addresses n).Pairwise fun a b => b.pointer < a.pointer)
    (hkept : ∀ n, ∀ a ∈ addresses n, a ∈ addresses (n + 1))
    (hlarger : ∀ n, ∀ a ∈ addresses n, ∀ b ∈ addresses (n + 1), b ∉ addresses n →
      a.pointer < b.pointer) :
    Gdk.Regular ⟨addresses, fun n cursor => .ok (pageOf size (addresses n) cursor)⟩ where
  distinct n := by
    have hnodup : ((addresses n).map (·.pointer)).Nodup := by
      rw [List.nodup_iff_pairwise_ne, List.pairwise_map]
      exact (hdesc n).imp fun hlt => by omega
    intro a ha b hb heq
    exact List.inj_on_of_nodup_map hnodup ha hb heq
  kept := hkept
  larger := hlarger
  descending n cursor p hp := by
    cases hp
    exact ((hdesc n).filter _).sublist (List.take_sublist _ _)
  listed n cursor p hp a := by
    cases hp
    cases hnext : (pageOf size (addresses n) cursor).lastPointer with
    | none =>
        rw [pageOf_end hsize hnext, mem_below]
        exact and_congr_right fun _ => (and_iff_left fun c hc => (nomatch hc)).symm
    | some c =>
        obtain ⟨last, hlast, rfl⟩ := pageOf_next hnext
        have hmem : a ∈ (pageOf size (addresses n) cursor).list ↔ _ :=
          mem_take_iff ((hdesc n).filter _) hlast
        rw [hmem, mem_below, and_assoc]
        refine and_congr_right fun _ => and_congr_right fun _ => ?_
        constructor
        · intro hle c hc
          cases hc
          exact hle
        · intro hle
          exact hle _ rfl
  smaller n cursor p hp c hc c' hc' := by
    cases hp
    obtain ⟨last, hlast, rfl⟩ := pageOf_next hc'
    have hmem := (List.take_sublist _ _).subset (List.mem_of_getLast? hlast)
    exact (mem_below.mp hmem).2 c hc
  nonempty n cursor p hp hnext := by
    cases hp
    obtain ⟨c, hc⟩ := Option.ne_none_iff_exists'.mp hnext
    obtain ⟨last, hlast, -⟩ := pageOf_next hc
    intro hnil
    rw [hnil] at hlast
    exact nomatch hlast

/-- An account with three addresses that gets a fourth before the third
    request, in pages of two. -/
def sampleGdk : Gdk where
  addresses n := if n < 2 then [⟨"c", 3⟩, ⟨"b", 2⟩, ⟨"a", 1⟩]
    else [⟨"d", 4⟩, ⟨"c", 3⟩, ⟨"b", 2⟩, ⟨"a", 1⟩]
  page n cursor := .ok (pageOf 2 (if n < 2 then [⟨"c", 3⟩, ⟨"b", 2⟩, ⟨"a", 1⟩]
    else [⟨"d", 4⟩, ⟨"c", 3⟩, ⟨"b", 2⟩, ⟨"a", 1⟩]) cursor)

theorem sampleGdk_regular : sampleGdk.Regular := by
  refine regular_pageOf (by decide) ?_ ?_ ?_
  · intro n
    split <;> decide
  · intro n
    by_cases h1 : n + 1 < 2
    · rw [if_pos (by omega), if_pos h1]
      exact fun _ h => h
    · rw [if_neg h1]
      split <;> decide
  · intro n
    by_cases h1 : n + 1 < 2
    · rw [if_pos (by omega), if_pos h1]
      exact fun _ _ b hb hnot => absurd hb hnot
    · rw [if_neg h1]
      split <;> decide

/-- The cache after a call for the oldest address and one for the newest. -/
theorem sample_cache_complete :
    ∃ s, Reached sampleGdk s ∧ s.Complete sampleGdk ∧
      s.ampPrevAddrs = some ⟨4, [⟨"c", 3⟩, ⟨"b", 2⟩, ⟨"a", 1⟩, ⟨"d", 4⟩]⟩ := by
  have hfirst : findOwnAddressInfo sampleGdk 2 ⟨0, true, "a"⟩ ⟨none, 0⟩ = some (.ok ⟨"a", 1⟩,
      ⟨some ⟨3, [⟨"c", 3⟩, ⟨"b", 2⟩, ⟨"a", 1⟩]⟩, 2⟩) := rfl
  have hsecond : findOwnAddressInfo sampleGdk 2 ⟨0, true, "d"⟩
      ⟨some ⟨3, [⟨"c", 3⟩, ⟨"b", 2⟩, ⟨"a", 1⟩]⟩, 2⟩ = some (.ok ⟨"d", 4⟩,
        ⟨some ⟨4, [⟨"c", 3⟩, ⟨"b", 2⟩, ⟨"a", 1⟩, ⟨"d", 4⟩]⟩, 4⟩) := rfl
  have hreached : Reached sampleGdk
      ⟨some ⟨4, [⟨"c", 3⟩, ⟨"b", 2⟩, ⟨"a", 1⟩, ⟨"d", 4⟩]⟩, 4⟩ := .call (.call .start hfirst) hsecond
  exact ⟨_, hreached, ((address_cache_complete sampleGdk sampleGdk_regular).2 _ hreached).1, rfl⟩

end AmpAddresses
