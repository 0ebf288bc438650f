import EarnProxy.Reservations

/-!
# The wallet lock

A payout goes to an address that has been the user's wallet for the 48 hours before the request.
The lock is a column of the wallet row; `WalletSince` says what it stands for in the history of the
row, which other users may delete and its owner may replace.
-/

namespace EarnProxy

open History Transaction

/-- What a successful `set_wallet` does to the wallets. -/
structure WalletSet (db db' : Db) (userId : Nat) (now : Timestamp) : Prop where
  own : ∃ w, db'.wallet? userId = some w ∧ w.lockedUntil = now + hours 48
  /-- Another user keeps a wallet or loses it. -/
  others : ∀ u ≠ userId, ∀ w, db'.wallet? u = some w → db.wallet? u = some w
  keyed : Table.Keyed Wallet.userId db'.wallets

section SetWallet

variable {db : Db} {userId sequence : Nat} {now : Timestamp} {p : Wallet → Prop} [DecidablePred p]

/-- The first wallet of a user, after `p` has kept some of the others. -/
theorem WalletSet.inserted (hk : Table.Keyed Wallet.userId db.wallets)
    (hnone : db.wallet? userId = none) {w : Wallet} (hw : w.userId = userId)
    (hlock : w.lockedUntil = now + hours 48) :
    WalletSet db { db with wallets := db.wallets.filter p ++ [w], walletSequence := sequence }
      userId now where
  own := by
    refine ⟨w, ?_, hlock⟩
    rw [Db.wallet?, Table.lookup_append_singleton, hk.lookup_filter, if_pos hw]
    simp [Db.wallet?] at hnone
    simp [hnone]
  others := by
    intro u hu v hv
    rw [Db.wallet?, Table.lookup_append_singleton, hk.lookup_filter,
      if_neg fun h => hu (h.symm.trans hw), Option.or_none] at hv
    exact (Option.filter_eq_some_iff.mp hv).1
  keyed := by
    have hkept : Table.Keyed Wallet.userId (db.wallets.filter p) :=
      (List.filter_sublist.map Wallet.userId).nodup hk
    refine hkept.append_fresh fun v hv hkey => ?_
    exact Table.lookup_eq_none.mp hnone v (List.mem_filter.mp hv).1 (hkey.trans hw)

/-- A new address for a wallet, after `p` has kept it and some of the others. -/
theorem WalletSet.updated (hk : Table.Keyed Wallet.userId db.wallets)
    (hsome : db.wallet? userId ≠ none) (hp : ∀ w : Wallet, w.userId = userId → p w)
    {address : String} :
    WalletSet db { db with
      wallets := Table.update (fun w => w.userId = userId)
        (fun w => { w with address := address, lockedUntil := now + hours 48 })
        (db.wallets.filter p)
      walletSequence := sequence } userId now := by
  have hlookup (u : Nat) : Table.lookup Wallet.userId u
      (Table.update (fun w : Wallet => w.userId = userId)
        (fun w => { w with address := address, lockedUntil := now + hours 48 })
        (db.wallets.filter p)) =
      ((db.wallet? u).filter p).map fun w => if w.userId = userId then
        { w with address := address, lockedUntil := now + hours 48 } else w := by
    rw [Table.update, Table.lookup_map (fun w _ => by split <;> rfl), hk.lookup_filter]
    rfl
  refine ⟨?_, fun u hu v hv => ?_, ?_⟩
  · obtain ⟨w, hw⟩ := Option.ne_none_iff_exists'.mp hsome
    have hid : w.userId = userId := Table.key_of_lookup hw
    refine ⟨{ w with address := address, lockedUntil := now + hours 48 }, ?_, rfl⟩
    exact (hlookup userId).trans (by simp [hw, Option.filter, hp w hid, hid])
  · have hv := (hlookup u).symm.trans hv
    obtain ⟨w, hw, rfl⟩ := Option.map_eq_some_iff.mp hv
    obtain ⟨hw, _⟩ := Option.filter_eq_some_iff.mp hw
    have hid : w.userId = u := Table.key_of_lookup hw
    simpa [hid, hu] using hw
  · have hkept : Table.Keyed Wallet.userId (db.wallets.filter p) :=
      (List.filter_sublist.map Wallet.userId).nodup hk
    exact hkept.map fun w _ => by split <;> rfl

end SetWallet

theorem setWallet_ok {db db' : Db} {userId : Nat} {address : String} {now : Timestamp}
    (hk : Table.Keyed Wallet.userId db.wallets) (h : setWallet db userId address now = .ok db') :
    WalletSet db db' userId now := by
  simp only [setWallet] at h
  split_ifs at h with _ _ _ _ hnone
  · rw [← Except.ok.inj h]
    exact .inserted hk hnone rfl rfl
  · rw [← Except.ok.inj h]
    exact .updated hk hnone fun w hw hreleased => hreleased.1.2 hw

/-- `set_wallet` is the only operation on wallets. -/
theorem step_wallets {db db' : Db} (hk : Table.Keyed Proxy.id db.proxies) {ev : Event}
    (h : step db ev = .ok db') (hset : ∀ userId address, ev.op ≠ .setWallet userId address) :
    db'.wallets = db.wallets := by
  obtain ⟨op, now, wall⟩ := ev
  by_cases hop : op.OnProxies
  · exact ((step_does hk hop).of_ok h).wallets
  by_cases husers : op.OnUsers
  · obtain ⟨users, rfl⟩ := step_users husers h
    rfl
  cases op with
  | addProxy userId parsed quota =>
    have hadded : db' = db ∨ db' = _ := (step_addProxy_does rfl).of_ok h
    rcases hadded with rfl | rfl <;> rfl
  | setWallet userId address => exact absurd rfl (hset userId address)
  | requestPayout userId amount limit =>
    obtain ⟨⟨db', id⟩, hrequest, rfl⟩ := ok_of_map h
    obtain ⟨payout, _, _, rfl⟩ := requestPayout_ok hrequest
    rfl
  | approvePayout payoutId =>
    obtain ⟨payout, _, _, _, rfl⟩ := approvePayout_ok h
    rfl
  | submitPayoutTransaction payoutId txHash =>
    obtain ⟨payout, _, payout', _, value, _, _, _, _, rfl⟩ := submitPayoutTransaction_ok h
    rfl
  | applyPayoutVerification payoutId result token =>
    obtain ⟨payout, _, _, rfl⟩ := applyPayoutVerification_ok h
    rfl
  | createUser | approveUser | pauseEarn | resumeEarn | blockUser | deleteUser =>
    exact absurd trivial husers
  | _ => exact absurd trivial hop

/-! ## The history of a wallet -/

/-- A `set_wallet` of the user that is accepted. -/
def Event.SetsWallet (userId : Nat) (db : Db) (ev : Event) : Prop :=
  (∃ address, ev.op = .setWallet userId address) ∧ ∃ db', step db ev = .ok db'

/-- `w` is the user's wallet, was set no later than `τ`, and has been the wallet since without
being set again. A wallet from before the history was set 48 hours before its lock ends. -/
def WalletSince (db₀ : Db) (userId : Nat) (w : Wallet) (τ : Timestamp) : List (Event × Db) → Prop
  | [] => db₀.wallet? userId = some w ∧ w.lockedUntil ≤ τ + hours 48
  | (ev, db) :: h => db.wallet? userId = some w ∧
      ((ev.SetsWallet userId (current db₀ h) ∧ ev.now ≤ τ) ∨
        (¬ ev.SetsWallet userId (current db₀ h) ∧ WalletSince db₀ userId w τ h))

section WalletSince

variable {db₀ db db' : Db} {h : List (Event × Db)} {userId : Nat} {w : Wallet} {τ τ' : Timestamp}

theorem WalletSince.mono (hw : WalletSince db₀ userId w τ h) (hτ : τ ≤ τ') :
    WalletSince db₀ userId w τ' h := by
  induction h with
  | nil => exact ⟨hw.1, hw.2.trans (by lia)⟩
  | cons x h ih =>
    obtain ⟨hwallet, ⟨hset, hle⟩ | ⟨hkept, hw⟩⟩ := hw
    · exact ⟨hwallet, .inl ⟨hset, hle.trans hτ⟩⟩
    · exact ⟨hwallet, .inr ⟨hkept, ih hw⟩⟩

/-- At every instant from `τ` on the wallet in force was `w`. -/
theorem WalletSince.held (hw : WalletSince db₀ userId w τ h) (htimely : Timely h) (hτ : τ ≤ τ') :
    Held Event.now (fun db => db.wallet? userId = some w) h τ' ∨ ∀ x ∈ h, τ' < x.1.now := by
  induction h with
  | nil => exact .inr (by simp)
  | cons x h ih =>
    obtain ⟨ev, db⟩ := x
    rw [held_cons]
    rcases le_or_gt ev.now τ' with hle | hlt
    · exact .inl (.inl ⟨hle, hw.1⟩)
    · obtain ⟨_, ⟨_, hset⟩ | ⟨_, hw⟩⟩ := hw
      · exact absurd (hset.trans hτ) (not_le.mpr hlt)
      · rcases ih hw htimely.tail with hheld | hbefore
        · exact .inl (.inr ⟨hlt, hheld⟩)
        · refine .inr fun y hy => ?_
          rcases List.mem_cons.mp hy with rfl | hy
          · exact hlt
          · exact hbefore y hy

/-- What an event does to the wallet of one user. -/
theorem exec_wallet (hk : Table.Keyed Proxy.id db.proxies)
    (hwallets : Table.Keyed Wallet.userId db.wallets) (ev : Event) :
    Table.Keyed Wallet.userId (exec db ev).wallets ∧
      ∀ userId w, (exec db ev).wallet? userId = some w →
        (ev.SetsWallet userId db ∧ w.lockedUntil = ev.now + hours 48) ∨
          (¬ ev.SetsWallet userId db ∧ db.wallet? userId = some w) := by
  cases hstep : step db ev with
  | error e =>
    rw [exec_of_error hstep]
    refine ⟨hwallets, fun userId w hw => .inr ⟨?_, hw⟩⟩
    rintro ⟨_, db', hok⟩
    cases hstep.symm.trans hok
  | ok db' =>
    rw [exec_of_ok hstep]
    by_cases hset : ∃ userId address, ev.op = .setWallet userId address
    · obtain ⟨owner, address, hop⟩ := hset
      obtain ⟨op, now, wall⟩ := ev
      subst hop
      have hsetwallet : setWallet db owner address now = .ok db' := hstep
      have hwalletset := setWallet_ok hwallets hsetwallet
      refine ⟨hwalletset.keyed, fun userId w hw => ?_⟩
      by_cases howner : userId = owner
      · subst howner
        obtain ⟨w', hw', hlock⟩ := hwalletset.own
        obtain rfl := Option.some.inj (hw.symm.trans hw')
        exact .inl ⟨⟨⟨address, rfl⟩, db', hstep⟩, hlock⟩
      · refine .inr ⟨?_, hwalletset.others userId howner w hw⟩
        rintro ⟨⟨address', hop⟩, _⟩
        cases hop
        exact howner rfl
    · have hsame : db'.wallets = db.wallets :=
        step_wallets hk hstep fun userId address hop => hset ⟨userId, address, hop⟩
      refine ⟨hsame ▸ hwallets, fun userId w hw => .inr ⟨?_, ?_⟩⟩
      · rintro ⟨⟨address, hop⟩, _⟩
        exact hset ⟨userId, address, hop⟩
      · rw [Db.wallet?, hsame] at hw
        exact hw

end WalletSince

section Runs

variable {db₀ db : Db} {h : List (Event × Db)}

theorem Runs.wallets_keyed (hfresh : db₀.Fresh) (hwallets : Table.Keyed Wallet.userId db₀.wallets)
    (run : Runs db₀ h db) : Table.Keyed Wallet.userId db.wallets := by
  refine run.invariant (I := fun _ db => Table.Keyed Wallet.userId db.wallets) hfresh hwallets ?_
  rintro h s ev s' _ hwf hkeyed rfl _
  exact (exec_wallet hwf.keyed hkeyed ev).1

/-- The lock of a wallet ends 48 hours after it was set. -/
theorem Runs.wallet_since (hfresh : db₀.Fresh) (hwallets : Table.Keyed Wallet.userId db₀.wallets)
    (run : Runs db₀ h db) {userId : Nat} {w : Wallet} (hw : db.wallet? userId = some w) :
    WalletSince db₀ userId w (w.lockedUntil - hours 48) h := by
  have hall : ∀ userId w, db.wallet? userId = some w →
      WalletSince db₀ userId w (w.lockedUntil - hours 48) h := by
    refine run.invariant (I := fun h db => ∀ userId w, db.wallet? userId = some w →
      WalletSince db₀ userId w (w.lockedUntil - hours 48) h) hfresh ?_ ?_
    · exact fun userId w hw => ⟨hw, by lia⟩
    · rintro h s ev s' hrun hwf ih rfl _
      have hkeyed := Runs.wallets_keyed hfresh hwallets hrun
      intro userId w hw
      refine ⟨hw, ?_⟩
      rw [hrun.current_eq]
      rcases (exec_wallet hwf.keyed hkeyed ev).2 userId w hw with ⟨hset, hlock⟩ | ⟨hkept, hold⟩
      · exact .inl ⟨hset, by lia⟩
      · exact .inr ⟨hkept, ih userId w hold⟩
  exact hall userId w hw

end Runs

/-! ## Payouts keep what they record -/

/-- The columns that `request_payout` writes for good. -/
def Payout.record (p : Payout) : Nat × Nat × Nat × String × Timestamp :=
  (p.id, p.userId, p.walletId, p.walletAddress, p.createdAt)

theorem PayoutEffect.record {db db' : Db} {ev : Event} (h : PayoutEffect db ev db') :
    db'.payouts.map Payout.record = db.payouts.map Payout.record ∨
      ∃ payout amount limit, ev.op = .requestPayout payout.userId amount limit ∧
        Unlocked db payout.userId ev.now payout ∧ db'.payouts = db.payouts ++ [payout] := by
  cases h with
  | same hsame => exact .inl (by rw [hsame])
  | @requested userId amount limit payout hop hadmitted hunlocked hsame =>
    obtain rfl := hadmitted.owner
    exact .inr ⟨payout, amount, limit, hop, hunlocked, hsame⟩
  | approved _ _ hsame =>
    rw [hsame]
    refine .inl (Table.map_update_of_forall Payout.record ?_ _)
    exact fun p _ => rfl
  | submitted _ _ _ _ hsame =>
    rw [hsame]
    refine .inl (Table.map_update_of_forall Payout.record ?_ _)
    exact fun p _ => rfl
  | verified _ _ _ hsame =>
    rw [hsame]
    refine .inl (Table.map_update_of_forall Payout.record ?_ _)
    exact fun p _ => rfl

/-- The event `x` of the history `later ++ x :: earlier` is the request of `p`. -/
structure Payout.RequestedAt (p : Payout) (db₀ : Db) (later : List (Event × Db)) (x : Event × Db)
    (earlier : List (Event × Db)) : Prop where
  request : ∃ amount limit, x.1.op = .requestPayout p.userId amount limit
  createdAt : p.createdAt = x.1.now
  /-- The address has been the user's for the last 48 hours. -/
  wallet : ∃ w, w.address = p.walletAddress ∧
    WalletSince db₀ p.userId w (p.createdAt - hours 48) earlier ∧
    (Timely earlier → ∀ τ, p.createdAt - hours 48 ≤ τ →
      Held Event.now (fun db => db.wallet? p.userId = some w) earlier τ ∨
        ∀ y ∈ earlier, τ < y.1.now)
  /-- No later event changes it. -/
  recorded : ∀ y ∈ later ++ [x], ∃ q, y.2.payout? p.id = some q ∧ q.walletAddress = p.walletAddress

section Lock

variable {db₀ db db' : Db} {h later earlier : List (Event × Db)} {x : Event × Db} {p q : Payout}

theorem Payout.RequestedAt.of_record (hp : p.RequestedAt db₀ later x earlier)
    (hrecord : q.record = p.record) : q.RequestedAt db₀ later x earlier := by
  simp only [Payout.record, Prod.mk.injEq] at hrecord
  obtain ⟨hid, howner, _, haddress, hcreated⟩ := hrecord
  obtain ⟨request, createdAt, wallet, recorded⟩ := hp
  rw [← hid, ← haddress] at recorded
  rw [← howner, ← haddress, ← hcreated] at wallet
  exact ⟨howner ▸ request, hcreated.trans createdAt, wallet, recorded⟩

/-- A new payout is requested by the last event. -/
theorem Unlocked.requestedAt {ev : Event} {amount : Int} {limit : Option Int}
    (hop : ev.op = .requestPayout p.userId amount limit)
    (hunlocked : Unlocked db p.userId ev.now p) (hk : Table.Keyed Payout.id db'.payouts)
    (hp : p ∈ db'.payouts) (hsince : ∀ w, db.wallet? p.userId = some w →
      WalletSince db₀ p.userId w (w.lockedUntil - hours 48) h) :
    p.RequestedAt db₀ [] (ev, db') h := by
  obtain ⟨⟨w, hw, hlock, _, haddress⟩, hcreated⟩ := hunlocked
  have hheld : WalletSince db₀ p.userId w (p.createdAt - hours 48) h :=
    (hsince w hw).mono (by lia)
  refine ⟨⟨amount, limit, hop⟩, hcreated, ⟨w, haddress.symm, hheld, ?_⟩, ?_⟩
  · exact fun htimely τ hτ => hheld.held htimely hτ
  · intro y hy
    obtain rfl : y = (ev, db') := by simpa using hy
    exact ⟨p, hk.lookup_eq hp, rfl⟩

/-- Every payout is requested at some event of the run, for an address that has been the user's
wallet for 48 hours, and keeps the address in every later state. -/
theorem wallet_lock (hfresh : db₀.Fresh) (hwallets : Table.Keyed Wallet.userId db₀.wallets)
    (run : Runs db₀ h db) (hp : p ∈ db.payouts) :
    ∃ later x earlier, h = later ++ x :: earlier ∧ p.RequestedAt db₀ later x earlier := by
  have hall : ∀ p ∈ db.payouts, ∃ later x earlier, h = later ++ x :: earlier ∧
      p.RequestedAt db₀ later x earlier := by
    refine run.invariant (I := fun h db => ∀ p ∈ db.payouts, ∃ later x earlier,
      h = later ++ x :: earlier ∧ p.RequestedAt db₀ later x earlier) hfresh ?_ ?_
    · simp [hfresh.payouts]
    · rintro h s ev s' hrun hwf ih rfl _
      have hk := Runs.payouts_keyed hfresh hrun
      have heffect := exec_payouts hwf.keyed hk ev
      have hk' := heffect.keyed hk
      -- a payout that was there keeps its record
      have hold : ∀ p ∈ s.payouts, ∀ q ∈ (exec s ev).payouts, q.record = p.record →
          ∃ later x earlier, (ev, exec s ev) :: h = later ++ x :: earlier ∧
            q.RequestedAt db₀ later x earlier := by
        intro p hp q hq hrecord
        obtain ⟨later, x, earlier, rfl, hrequested⟩ := ih p hp
        refine ⟨(ev, exec s ev) :: later, x, earlier, rfl, ?_⟩
        have hq' := hrequested.of_record hrecord
        refine { hq' with recorded := fun y hy => ?_ }
        rcases List.mem_cons.mp hy with rfl | hy
        · exact ⟨q, hk'.lookup_eq hq, rfl⟩
        · exact hq'.recorded y hy
      intro q hq
      rcases heffect.record with hsame | ⟨payout, amount, limit, hop, hunlocked, hnew⟩
      · have hmem : q.record ∈ s.payouts.map Payout.record := hsame ▸ List.mem_map_of_mem hq
        obtain ⟨p, hp, hrecord⟩ := List.mem_map.mp hmem
        exact hold p hp q hq hrecord.symm
      · rcases List.mem_append.mp (hnew ▸ hq) with hmem | hmem
        · exact hold q hmem q hq rfl
        · obtain rfl := List.mem_singleton.mp hmem
          refine ⟨[], (ev, exec s ev), h, rfl, hunlocked.requestedAt hop hk' hq fun w hw => ?_⟩
          exact Runs.wallet_since hfresh hwallets hrun hw
  exact hall p hp

end Lock

open Scenario in
/-- The owner takes a new wallet right after a payout request. -/
def walletReplaced : List Event :=
  funded ++
    [minute 1740002 (.requestPayout 1 15000000 none),
      minute 1740003 (.setWallet 1 "0xde709f2102306220921060314715629080e2fb77")]

open Scenario in
theorem wallet_lock_walletReplaced :
    ((after oneUser walletReplaced).wallets.map Wallet.address,
        (after oneUser walletReplaced).payouts.map Payout.walletAddress) =
      (["0xde709f2102306220921060314715629080e2fb77"],
        ["0x52908400098527886e0f7030069857d2e4169ee7"]) ∧
      ∀ p ∈ (after oneUser walletReplaced).payouts, ∃ later x earlier,
        history oneUser walletReplaced = later ++ x :: earlier ∧
          p.RequestedAt oneUser later x earlier :=
  ⟨by decide +kernel, fun _ hp =>
    wallet_lock oneUser_fresh List.nodup_nil (runs oneUser walletReplaced) hp⟩

end EarnProxy
