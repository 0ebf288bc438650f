import EarnProxy.Invariants

/-!
# Payouts reserve earned funds

A payout holds its amount from the request until it fails. The reserved amounts of a user never
exceed the available balance: both ways into the reserving statuses check it, and no operation
lowers an available balance. The bound on outstanding payouts holds only as long as failed payouts
are not retried into a full queue, because the retry does not check it.
-/

namespace EarnProxy

open Transaction

/-- What a successful event does to the payouts. -/
inductive PayoutEffect (db : Db) (ev : Event) (db' : Db) : Prop where
  | same (payouts : db'.payouts = db.payouts)
  | requested {userId : Nat} {amount : Int} {limit : Option Int} {payout : Payout}
      (op : ev.op = .requestPayout userId amount limit) (admitted : Admitted db userId limit payout)
      (unlocked : Unlocked db userId ev.now payout) (payouts : db'.payouts = db.payouts ++ [payout])
  | approved {payout : Payout} (mem : payout ∈ db.payouts) (status : payout.status = .requested)
      (payouts : db'.payouts =
        Table.update (fun p => p.id = payout.id)
          (fun p => { p with status := .approved }) db.payouts)
  | submitted {payout : Payout} {txHash value : String} (mem : payout ∈ db.payouts)
      (op : ev.op = .submitPayoutTransaction payout.id txHash)
      (status : payout.status.Submittable) (submits : Submits db txHash value payout)
      (payouts : db'.payouts =
        Table.update (fun p => p.id = payout.id) (fun p => p.submitted value ev.now) db.payouts)
  | verified {payout : Payout} {result : VerificationResult} {claimToken : Option String}
      (mem : payout ∈ db.payouts)
      (op : ev.op = .applyPayoutVerification payout.id result claimToken)
      (awaits : payout.Awaits payout.id claimToken)
      (payouts : db'.payouts =
        Table.update (fun p => p.id = payout.id) (fun p => p.verified result ev.now) db.payouts)

/-- The operations on proxies leave the payouts alone. -/
theorem Phased.payouts {lic : Licence} {P : Nat → Prop} {db db' : Db} (h : Phased lic P db db') :
    db'.payouts = db.payouts := by
  obtain ⟨accrued, hvisits, φ, ids, rfl, _⟩ := h
  exact hvisits.moved.payouts

theorem Phased.wallets {lic : Licence} {P : Nat → Prop} {db db' : Db} (h : Phased lic P db db') :
    db'.wallets = db.wallets := by
  obtain ⟨accrued, hvisits, φ, ids, rfl, _⟩ := h
  exact hvisits.moved.wallets

theorem setWallet_payouts {db db' : Db} {userId : Nat} {address : String} {now : Timestamp}
    (h : setWallet db userId address now = .ok db') : db'.payouts = db.payouts := by
  simp only [setWallet] at h
  split_ifs at h <;> cases h <;> rfl

theorem step_payouts {db db' : Db} (hk : Table.Keyed Proxy.id db.proxies)
    (hkeyed : Table.Keyed Payout.id db.payouts) {ev : Event} (h : step db ev = .ok db') :
    PayoutEffect db ev db' := by
  obtain ⟨op, now, wall⟩ := ev
  by_cases hop : op.OnProxies
  · exact .same ((step_does hk hop).of_ok h).payouts
  by_cases husers : op.OnUsers
  · obtain ⟨users, rfl⟩ := step_users husers h
    exact .same rfl
  cases op with
  | addProxy userId parsed quota =>
    have hadded : db' = db ∨ db' = _ := (step_addProxy_does rfl).of_ok h
    rcases hadded with rfl | rfl
    · exact .same rfl
    · exact .same rfl
  | setWallet userId address =>
    have h : setWallet db userId address now = .ok db' := h
    exact .same (setWallet_payouts h)
  | requestPayout userId amount limit =>
    obtain ⟨⟨db', id⟩, hrequest, rfl⟩ := ok_of_map h
    obtain ⟨payout, hadmitted, hunlocked, rfl⟩ := requestPayout_ok hrequest
    exact .requested rfl hadmitted hunlocked rfl
  | approvePayout payoutId =>
    obtain ⟨payout, hmem, rfl, hstatus, rfl⟩ := approvePayout_ok h
    exact .approved hmem hstatus (hkeyed.update_eq hmem ⟨rfl, hstatus⟩ fun _ h => h.1)
  | submitPayoutTransaction payoutId txHash =>
    obtain ⟨payout, hmem, payout', hmem', value, rfl, hid', hstatus, hsubmits, rfl⟩ :=
      submitPayoutTransaction_ok h
    obtain rfl := hkeyed.eq hmem hmem' hid'.symm
    exact .submitted hmem rfl hstatus hsubmits (hkeyed.update_eq hmem ⟨rfl, hstatus⟩ fun _ h => h.1)
  | applyPayoutVerification payoutId result token =>
    obtain ⟨payout, hmem, hawaits, rfl⟩ := applyPayoutVerification_ok h
    obtain rfl := hawaits.1
    exact .verified hmem rfl hawaits (hkeyed.update_eq hmem hawaits fun _ h => h.1)
  | createUser | approveUser | pauseEarn | resumeEarn | blockUser | deleteUser =>
    exact absurd trivial husers
  | _ => exact absurd trivial hop

theorem exec_payouts {db : Db} (hk : Table.Keyed Proxy.id db.proxies)
    (hkeyed : Table.Keyed Payout.id db.payouts) (ev : Event) : PayoutEffect db ev (exec db ev) := by
  cases hstep : step db ev with
  | error e =>
    rw [exec_of_error hstep]
    exact .same rfl
  | ok db' =>
    rw [exec_of_ok hstep]
    exact step_payouts hk hkeyed hstep

theorem PayoutEffect.keyed {db db' : Db} {ev : Event} (h : PayoutEffect db ev db')
    (hkeyed : Table.Keyed Payout.id db.payouts) : Table.Keyed Payout.id db'.payouts := by
  cases h with
  | same hsame => rwa [hsame]
  | requested _ hadmitted _ hsame =>
    rw [hsame]
    refine hkeyed.append_fresh fun p hp => ?_
    rw [hadmitted.id]
    exact (Table.lt_nextKey hp).ne
  | approved _ _ hsame =>
    rw [hsame]
    exact hkeyed.map fun p _ => by split <;> rfl
  | submitted _ _ _ _ hsame =>
    rw [hsame]
    exact hkeyed.map fun p _ => by split <;> rfl
  | verified _ _ _ hsame =>
    rw [hsame]
    exact hkeyed.map fun p _ => by split <;> rfl

/-! ## Available balances -/

theorem balanceForUser_eq_total (db : Db) (userId : Nat) (bucket : Bucket) :
    balanceForUser db userId bucket =
      Table.total (fun e => e.userId = userId ∧ e.bucket = bucket) LedgerEntry.microUsd db.ledger :=
  rfl

/-- Moving entries out of `pending` lowers no available balance. -/
theorem total_relabel_le (userId : Nat) {p : LedgerEntry → Prop} [DecidablePred p] {bucket : Bucket}
    (hp : ∀ e, p e → e.bucket = .pending) (ledger : List LedgerEntry) :
    Table.total (fun e => e.userId = userId ∧ e.bucket = .available) LedgerEntry.microUsd ledger ≤
      Table.total (fun e => e.userId = userId ∧ e.bucket = .available) LedgerEntry.microUsd
        (Table.update p (fun e => { e with bucket := bucket }) ledger) := by
  refine Table.total_le_map fun e _ hcounts => ?_
  have hkept : ¬ p e := fun h => by simpa [hcounts.2] using hp e h
  rw [if_neg hkept]
  exact ⟨hcounts, rfl⟩

theorem Visit.available_le {now : Timestamp} {i : Nat} {db db' : Db} (h : Visit now i db db')
    (userId : Nat) :
    balanceForUser db userId .available ≤ balanceForUser db' userId .available := by
  cases h with
  | skip => exact le_rfl
  | @credit row user cursor until_ news ignored hi span payable credits hignored =>
    show _ ≤ Table.total _ LedgerEntry.microUsd (_ ++ news)
    rw [Table.total_append]
    refine le_trans ?_ (Nat.le_add_right _ _)
    unfold unlockCycle
    split
    · exact total_relabel_le userId (fun e he => he.2.1) db.ledger
    · exact le_rfl

/-- No event lowers an available balance. -/
theorem Effect.available_le {db db' : Db} {ev : Event} (h : Effect db ev db') (userId : Nat) :
    balanceForUser db userId .available ≤ balanceForUser db' userId .available := by
  cases h with
  | proxies hphased =>
    obtain ⟨accrued, hvisits, φ, ids, rfl, _⟩ := hphased
    have haccrued : balanceForUser db userId .available ≤
        balanceForUser accrued userId .available :=
      hvisits.keeps (I := fun s => balanceForUser db userId .available ≤
        balanceForUser s userId .available) (fun _ _ _ _ hle hvisit =>
        hle.trans (hvisit.available_le userId)) le_rfl
    exact haccrued.trans (total_relabel_le userId (fun e he => he.2) accrued.ledger)
  | added => exact le_rfl
  | others hsame =>
    rw [balanceForUser_eq_total, balanceForUser_eq_total, hsame.ledger]

/-! ## Reservations -/

/-- The payout holds funds of the user. -/
def Payout.Holds (userId : Nat) (p : Payout) : Prop := p.userId = userId ∧ p.status.Reserving

instance (userId : Nat) : DecidablePred (Payout.Holds userId) :=
  fun _ => inferInstanceAs (Decidable (_ ∧ _))

theorem reservedMicroUsd_none (db : Db) (userId : Nat) :
    reservedMicroUsd db userId none =
      Table.total (Payout.Holds userId) Payout.amountMicroUsd db.payouts :=
  Table.total_congr (fun p => by simp [Payout.Holds]) db.payouts

theorem reservedMicroUsd_some (db : Db) (userId i : Nat) :
    reservedMicroUsd db userId (some i) =
      Table.total (fun p => p.Holds userId ∧ p.id ≠ i) Payout.amountMicroUsd db.payouts :=
  Table.total_congr (fun p => by simp [Payout.Holds]; tauto) db.payouts

/-- No user has reserved more than the available balance. -/
def Db.Funded (db : Db) : Prop :=
  ∀ userId, reservedMicroUsd db userId none ≤ balanceForUser db userId .available

theorem PayoutEffect.funded {db db' : Db} {ev : Event} (h : PayoutEffect db ev db')
    (hkeyed : Table.Keyed Payout.id db.payouts) (hfunded : db.Funded)
    (havailable : ∀ userId,
      balanceForUser db userId .available ≤ balanceForUser db' userId .available) : db'.Funded := by
  intro userId
  refine le_trans ?_ (havailable userId)
  have hle := hfunded userId
  rw [reservedMicroUsd_none] at hle ⊢
  cases h with
  | same hsame =>
    rw [hsame]
    exact hle
  | @requested owner amount limit payout hop hadmitted _ hsame =>
    rw [hsame, Table.total_append, Table.total_cons, Table.total_nil]
    by_cases howner : owner = userId
    · have hadmit := hadmitted.funded
      rw [reservedMicroUsd_none, howner] at hadmit
      split <;> omega
    · have hother : ¬ payout.Holds userId := fun h => howner (hadmitted.owner.symm.trans h.1)
      rw [if_neg hother]
      omega
  | @approved payout hmem hstatus hsame =>
    rw [hsame]
    refine (hkeyed.total_update_le hmem fun hholds => ⟨⟨hholds.1, ?_⟩, le_rfl⟩).trans hle
    rw [hstatus]
    decide
  | @submitted payout txHash value hmem hop hstatus hsubmits hsame =>
    rw [hsame]
    by_cases hfailed : payout.status = .failed
    · -- a failed payout held nothing, and its amount was checked
      have hnone : ¬ payout.Holds userId := by
        rintro ⟨_, hreserving⟩
        rw [hfailed] at hreserving
        exact absurd hreserving (by decide)
      have hexcept :=
        hkeyed.total_except (p := Payout.Holds userId) (w := Payout.amountMicroUsd) hmem
      have htotal := hkeyed.total_update (p := Payout.Holds userId) (w := Payout.amountMicroUsd)
        hmem fun p => p.submitted value ev.now
      rw [if_neg hnone] at hexcept htotal
      have hretry := hsubmits.funded hfailed
      rw [reservedMicroUsd_some] at hretry
      by_cases howner : payout.userId = userId
      · rw [howner] at hretry
        have hamount : (payout.submitted value ev.now).amountMicroUsd = payout.amountMicroUsd := rfl
        split at htotal <;> omega
      · have hother : ¬ (payout.submitted value ev.now).Holds userId := fun h => howner h.1
        rw [if_neg hother] at htotal
        omega
    · refine (hkeyed.total_update_le hmem fun hholds => ⟨⟨hholds.1, ?_⟩, le_rfl⟩).trans hle
      rcases hstatus with hs | hs | hs
      · rw [hs]
        decide
      · exact absurd hs hfailed
      · rw [hs]
        decide
  | @verified payout result claimToken hmem hop hawaits hsame =>
    rw [hsame]
    refine (hkeyed.total_update_le hmem fun hholds => ⟨⟨hholds.1, ?_⟩, le_rfl⟩).trans hle
    rw [hawaits.2.1]
    decide

section Runs

variable {db₀ db : Db} {h : List (Event × Db)}

theorem Runs.payouts_keyed (hfresh : db₀.Fresh) (run : Runs db₀ h db) :
    Table.Keyed Payout.id db.payouts := by
  refine run.invariant (I := fun _ db => Table.Keyed Payout.id db.payouts) hfresh ?_ ?_
  · rw [hfresh.payouts]
    exact List.nodup_nil
  · rintro h s ev s' _ hwf hkeyed rfl _
    exact (exec_payouts hwf.keyed hkeyed ev).keyed hkeyed

/-- In every run each user's reserved amounts are covered by the available balance, and an event
that raises leaves the payouts as they were. -/
theorem reservations_funded (hfresh : db₀.Fresh) (run : Runs db₀ h db) :
    (∀ userId, reservedMicroUsd db userId none ≤ balanceForUser db userId .available) ∧
      ∀ ev e, step db ev = .error e → (exec db ev).payouts = db.payouts := by
  constructor
  · refine run.invariant (I := fun _ db => db.Funded) hfresh ?_ ?_
    · intro userId
      simp [reservedMicroUsd, hfresh.payouts]
    · rintro h s ev s' hrun hwf hfunded rfl heffect
      have hkeyed := Runs.payouts_keyed hfresh hrun
      exact (exec_payouts hwf.keyed hkeyed ev).funded hkeyed hfunded heffect.available_le
  · intro ev e herror
    rw [exec_of_error herror]

end Runs

open Scenario in
/-- A proxy that EarnApp accepts before its first health check is paid from then on, here for 40
months; the owner has a wallet by then. -/
def funded : List Event :=
  [minute 0 (.setWallet 1 "0x52908400098527886e0f7030069857d2e4169ee7"),
    minute 0 (.addProxy 1 (endpoint "192.0.2.1") none),
    minute 1 (.applyEarnappResult 1 (allowedFrom "198.51.100.7")),
    minute 1740000 (.applyHealthResult 1 (liveFrom "198.51.100.7")),
    minute 1740001 .accrueEligibleTime]

/-- A transaction hash of one digit. -/
def txHashOf (digit : Char) : String := "0x" ++ String.ofList (List.replicate 64 digit)

open Scenario in
/-- A payout fails, its funds are requested again, and the retry of the first one is refused. -/
def refusedRetry : List Event :=
  funded ++
    [minute 1740002 (.requestPayout 1 15000000 none),
      minute 1740003 (.approvePayout 1),
      minute 1740004 (.submitPayoutTransaction 1 (txHashOf 'a')),
      minute 1740005 (.applyPayoutVerification 1 { status := .failed } none),
      minute 1740006 (.requestPayout 1 15000000 none),
      minute 1740007 (.submitPayoutTransaction 1 (txHashOf 'b'))]

open Scenario in
theorem reservations_funded_refusedRetry :
    ((after oneUser refusedRetry).payouts.map fun p => (p.status, p.amountMicroUsd)) =
        [(.failed, 15000000), (.requested, 15000000)] ∧
      (∀ userId, reservedMicroUsd (after oneUser refusedRetry) userId none ≤
        balanceForUser (after oneUser refusedRetry) userId .available) ∧
      ∀ ev e, step (after oneUser refusedRetry) ev = .error e →
        (exec (after oneUser refusedRetry) ev).payouts = (after oneUser refusedRetry).payouts :=
  ⟨by decide +kernel, reservations_funded oneUser_fresh (runs oneUser refusedRetry)⟩

/-! ## The queue of outstanding payouts -/

theorem outstandingPayouts_eq_total (db : Db) (userId : Nat) :
    outstandingPayouts db userId =
      Table.total (fun p => p.userId = userId ∧ p.status.Nonterminal) (fun _ => 1) db.payouts := by
  simp [outstandingPayouts, Table.total]

instance (db : Db) (txHash : String) (payout : Payout) :
    Decidable (∃ value, Submits db txHash value payout) :=
  match h : normalizeTxHash txHash with
  | .error e => .isFalse fun ⟨_, hsubmits⟩ => nomatch h.symm.trans hsubmits.hash
  | .ok value =>
    decidable_of_iff
      ((∀ p ∈ db.payouts, Text.asciiLower p.txHash = value → p.id = payout.id) ∧
        (payout.status = .failed → reservedMicroUsd db payout.userId (some payout.id) +
          payout.amountMicroUsd ≤ balanceForUser db payout.userId .available))
      ⟨fun hs => ⟨value, h, hs.1, hs.2⟩, fun ⟨_, hs⟩ => by
        obtain rfl := Except.ok.inj (h.symm.trans hs.hash)
        exact ⟨hs.unique, hs.funded⟩⟩

/-- An admitted retry of a failed payout finds room in the queue. -/
def Event.RetriesWithin (limit : Option Int) (db : Db) (ev : Event) : Prop :=
  match ev.op with
  | .submitPayoutTransaction payoutId txHash => ∀ payout ∈ db.payouts, payout.id = payoutId →
      payout.status = .failed → (∃ value, Submits db txHash value payout) →
      outstandingPayouts db payout.userId < outstandingLimit limit
  | _ => True

instance (limit : Option Int) (db : Db) (ev : Event) : Decidable (ev.RetriesWithin limit db) := by
  rcases ev with ⟨⟨⟩, now, wall⟩ <;> unfold Event.RetriesWithin <;> infer_instance

/-- The limit of a request. -/
def Op.requestLimit? : Op → Option (Option Int)
  | .requestPayout _ _ limit => some limit
  | _ => none

/-- Every request of the run is made with the one limit. -/
def RequestsWith (limit : Option Int) (h : List (Event × Db)) : Prop :=
  ∀ x ∈ h, ∀ limit' ∈ x.1.op.requestLimit?, limit' = limit

instance (limit : Option Int) (h : List (Event × Db)) : Decidable (RequestsWith limit h) :=
  inferInstanceAs (Decidable (∀ x ∈ h, _))

open Scenario in
/-- With room for one payout, a second one is requested after the first has failed; then the first
is retried. -/
def retryIntoFullQueue : List Event :=
  funded ++
    [minute 1740002 (.requestPayout 1 10000000 (some 1)),
      minute 1740003 (.approvePayout 1),
      minute 1740004 (.submitPayoutTransaction 1 (txHashOf 'a')),
      minute 1740005 (.applyPayoutVerification 1 { status := .failed } none),
      minute 1740006 (.requestPayout 1 10000000 (some 1)),
      minute 1740007 (.submitPayoutTransaction 1 (txHashOf 'b'))]

open Scenario in
/-- The retry is admitted, and the user has two outstanding payouts under a limit of one. -/
theorem outstanding_retryIntoFullQueue :
    oneUser.Fresh ∧
      Runs oneUser (history oneUser retryIntoFullQueue) (after oneUser retryIntoFullQueue) ∧
      RequestsWith (some 1) (history oneUser retryIntoFullQueue) ∧
      outstandingLimit (some 1) = 1 ∧
      ¬ outstandingPayouts (after oneUser retryIntoFullQueue) 1 ≤ outstandingLimit (some 1) :=
  ⟨oneUser_fresh, runs oneUser retryIntoFullQueue, by decide +kernel, by decide, by decide +kernel⟩

theorem PayoutEffect.outstanding_le {limit : Option Int} {db db' : Db} {ev : Event}
    (h : PayoutEffect db ev db') (hkeyed : Table.Keyed Payout.id db.payouts)
    (hlimit : ∀ limit' ∈ ev.op.requestLimit?, limit' = limit)
    (hretry : ev.RetriesWithin limit db) {userId : Nat}
    (hle : outstandingPayouts db userId ≤ outstandingLimit limit) :
    outstandingPayouts db' userId ≤ outstandingLimit limit := by
  have hcount := hle
  rw [outstandingPayouts_eq_total] at hcount ⊢
  cases h with
  | same hsame =>
    rw [hsame]
    exact hcount
  | @requested owner amount limit' payout hop hadmitted _ hsame =>
    obtain rfl := hlimit limit' (by rw [hop]; rfl)
    rw [hsame, Table.total_append, Table.total_cons, Table.total_nil]
    by_cases howner : owner = userId
    · have hroom := hadmitted.quota
      rw [howner, outstandingPayouts_eq_total] at hroom
      split <;> omega
    · have hother : ¬ (payout.userId = userId ∧ payout.status.Nonterminal) :=
        fun h => howner (hadmitted.owner.symm.trans h.1)
      rw [if_neg hother]
      omega
  | @approved payout hmem hstatus hsame =>
    rw [hsame]
    refine (hkeyed.total_update_le hmem fun hout => ⟨⟨hout.1, ?_⟩, le_rfl⟩).trans hcount
    rw [hstatus]
    decide
  | @submitted payout txHash value hmem hop hstatus hsubmits hsame =>
    rw [hsame]
    by_cases hfailed : payout.status = .failed
    · have hroom : outstandingPayouts db payout.userId < outstandingLimit limit := by
        unfold Event.RetriesWithin at hretry
        rw [hop] at hretry
        exact hretry payout hmem rfl hfailed ⟨value, hsubmits⟩
      have htotal := hkeyed.total_update
        (p := fun p => p.userId = userId ∧ p.status.Nonterminal) (w := fun _ => 1) hmem
        fun p => p.submitted value ev.now
      by_cases howner : payout.userId = userId
      · rw [howner, outstandingPayouts_eq_total] at hroom
        split at htotal <;> split at htotal <;> omega
      · have hother : ¬ ((payout.submitted value ev.now).userId = userId ∧
            (payout.submitted value ev.now).status.Nonterminal) := fun h => howner h.1
        rw [if_neg hother] at htotal
        omega
    · refine (hkeyed.total_update_le hmem fun hout => ⟨⟨hout.1, ?_⟩, le_rfl⟩).trans hcount
      rcases hstatus with hs | hs | hs
      · rw [hs]
        decide
      · exact absurd hs hfailed
      · rw [hs]
        decide
  | @verified payout result claimToken hmem hop hawaits hsame =>
    rw [hsame]
    refine (hkeyed.total_update_le hmem fun hout => ⟨⟨hout.1, ?_⟩, le_rfl⟩).trans hcount
    rw [hawaits.2.1]
    decide

section Runs

variable {db₀ db : Db} {h : List (Event × Db)}

/-- When every admitted retry of a failed payout finds room in the queue, no user has more
outstanding payouts than the limit of the requests. -/
theorem outstanding_within_limit {limit : Option Int} (hfresh : db₀.Fresh) (run : Runs db₀ h db)
    (hlimit : RequestsWith limit h)
    (hretry : History.Throughout (fun db ev => ev.RetriesWithin limit db) db₀ h) (userId : Nat) :
    outstandingPayouts db userId ≤ outstandingLimit limit := by
  refine run.invariant (I := fun h db => RequestsWith limit h →
    History.Throughout (fun db ev => ev.RetriesWithin limit db) db₀ h →
    outstandingPayouts db userId ≤ outstandingLimit limit) hfresh ?_ ?_ hlimit hretry
  · intro _ _
    simp [outstandingPayouts, hfresh.payouts]
  · rintro h s ev s' hrun hwf hI rfl _ hlimit hretry
    have hkeyed := Runs.payouts_keyed hfresh hrun
    refine (exec_payouts hwf.keyed hkeyed ev).outstanding_le hkeyed
      (hlimit (ev, exec s ev) (by simp)) (hretry.head hrun) (hI ?_ hretry.2)
    exact fun x hx => hlimit x (List.mem_cons_of_mem _ hx)

end Runs

open Scenario in
/-- The failed payout is retried before anything else is requested. -/
def retryIntoEmptyQueue : List Event :=
  funded ++
    [minute 1740002 (.requestPayout 1 10000000 (some 1)),
      minute 1740003 (.approvePayout 1),
      minute 1740004 (.submitPayoutTransaction 1 (txHashOf 'a')),
      minute 1740005 (.applyPayoutVerification 1 { status := .failed } none),
      minute 1740006 (.submitPayoutTransaction 1 (txHashOf 'b')),
      minute 1740007 (.requestPayout 1 10000000 (some 1))]

open Scenario in
theorem outstanding_within_limit_retryIntoEmptyQueue :
    outstandingPayouts (after oneUser retryIntoEmptyQueue) 1 ≤ outstandingLimit (some 1) :=
  outstanding_within_limit oneUser_fresh (runs oneUser retryIntoEmptyQueue) (by decide +kernel)
    (by decide +kernel) 1

end EarnProxy
