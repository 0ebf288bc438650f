import EarnProxy.Coverage

/-!
# Time of a user who may not be paid

An accrual reads the flags of the user once, for the whole span since the cursor, and the requests
that change the flags touch no cursor. So the flags must not have changed inside a span: then time
of a paused or inactive user is skipped, and all other time is credited.
-/

namespace EarnProxy

/-! ## Changes of a user -/

/-- The user `u` may be paid. -/
def Db.Paid (u : Nat) (db : Db) : Prop := ∃ user ∈ db.user? u, user.Payable

instance (u : Nat) : DecidablePred (Db.Paid u) := fun _ => inferInstanceAs (Decidable (∃ _ ∈ _, _))

/-- The event makes user `u` payable, or stops that. -/
def Event.Switches (u : Nat) (db : Db) (ev : Event) : Prop :=
  match ev.op with
  | .pauseEarn userId | .blockUser userId | .deleteUser userId =>
      userId = u ∧ ∃ user ∈ managedUser? db userId, user.Payable
  | .resumeEarn userId =>
      userId = u ∧ ∃ user ∈ managedUser? db userId, user.status = .active ∧ user.earnPaused = true
  | .approveUser userId =>
      userId = u ∧ ∃ user ∈ managedUser? db userId, user.status ≠ .active ∧ user.earnPaused = false
  | .createUser status _ => Table.nextKey User.id db.users = u ∧ status = .active
  | _ => False

instance (u : Nat) (db : Db) (ev : Event) : Decidable (ev.Switches u db) := by
  rcases ev with ⟨⟨⟩, now, wall⟩ <;> unfold Event.Switches <;> infer_instance

/-- The flags a request writes decide about its user. -/
theorem Db.paid_updateUser {db : Db} {userId u : Nat} {row : User} {f : User → User}
    (hrow : managedUser? db userId = some row) (hf : ∀ v, (f v).id = v.id) :
    (db.updateUser userId f).Paid u ↔ if userId = u then (f row).Payable else db.Paid u := by
  have huser : db.user? userId = some row := (Option.filter_eq_some_iff.mp hrow).1
  unfold Db.Paid
  rw [Db.user?_updateUser hf]
  split
  · subst u
    have hid : row.id = userId := Table.key_of_lookup huser
    simp [huser, hid]
  · rename_i hne
    cases hu : db.user? u with
    | none => simp
    | some v =>
      have hv : v.id ≠ userId := by
        have := Table.key_of_lookup hu
        grind
      simp [hv]

theorem Db.paid_of_managed {db : Db} {userId : Nat} {row : User}
    (hrow : managedUser? db userId = some row) : db.Paid userId ↔ row.Payable := by
  have huser : db.user? userId = some row := (Option.filter_eq_some_iff.mp hrow).1
  simp [Db.Paid, huser]

theorem changeUser_paid {db db' : Db} {userId u : Nat} {status : Option UserStatus}
    {earnPaused : Option Bool} (h : changeUser db userId status earnPaused = .ok db')
    (hsame : userId = u → ∀ row ∈ managedUser? db userId,
      (row.Payable ↔ (row.changed status earnPaused row).Payable)) : db'.Paid u ↔ db.Paid u := by
  unfold changeUser at h
  cases hrow : managedUser? db userId with
  | none => rw [hrow] at h; cases h
  | some row =>
    rw [hrow] at h
    obtain rfl : db.updateUser userId (row.changed status earnPaused) = db' := Except.ok.inj h
    rw [Db.paid_updateUser (f := row.changed status earnPaused) hrow fun _ => rfl]
    split
    · subst u
      rw [Db.paid_of_managed hrow]
      exact (hsame rfl row hrow).symm
    · rfl

theorem deleteUser_paid {db db' : Db} {userId u : Nat} (h : deleteUser db userId = .ok db')
    (hsame : userId = u → ∀ row ∈ managedUser? db userId, ¬ row.Payable) :
    db'.Paid u ↔ db.Paid u := by
  unfold deleteUser at h
  cases hrow : managedUser? db userId with
  | none => rw [hrow] at h; cases h
  | some row =>
    rw [hrow] at h
    rw [← Except.ok.inj h, Db.paid_updateUser hrow (by simp)]
    split
    · subst u
      rw [Db.paid_of_managed hrow]
      simpa [User.Payable] using hsame rfl row hrow
    · rfl

theorem createUser_paid {db : Db} {status : UserStatus} {role : Role} {u : Nat}
    (h : ¬ (Table.nextKey User.id db.users = u ∧ status = .active)) :
    (createUser db status role).Paid u ↔ db.Paid u := by
  simp only [Db.Paid, Db.user?, createUser, Table.lookup, List.find?_append]
  cases hfind : db.users.find? fun r => r.id = u with
  | some v => simp
  | none =>
    by_cases hid : Table.nextKey User.id db.users = u
    · simp [hid, User.Payable]
      exact fun hactive => absurd ⟨hid, hactive⟩ h
    · simp [hid]

/-- Nothing else changes whether a user may be paid. -/
theorem exec_paid {db : Db} (hk : Table.Keyed Proxy.id db.proxies) {ev : Event} {u : Nat}
    (h : ¬ ev.Switches u db) : (exec db ev).Paid u ↔ db.Paid u := by
  cases hstep : step db ev with
  | error e => rw [exec_of_error hstep]
  | ok db' =>
    rw [exec_of_ok hstep]
    have husers : db'.users = db.users → (db'.Paid u ↔ db.Paid u) := by
      intro heq
      simp only [Db.Paid, Db.user?, heq]
    by_cases hop : ev.op.OnProxies
    · obtain ⟨accrued, hvisits, φ, ids, rfl, _⟩ := (step_does hk hop).of_ok hstep
      exact husers hvisits.moved.users
    by_cases hadd : ∃ userId parsed quota, ev.op = .addProxy userId parsed quota
    · obtain ⟨userId, parsed, quota, hev⟩ := hadd
      have hadded : db' = db ∨ db' = _ := (step_addProxy_does hev).of_ok hstep
      rcases hadded with rfl | rfl <;> exact husers rfl
    by_cases hus : ev.op.OnUsers
    · obtain ⟨op, now, wall⟩ := ev
      cases op with
      | createUser status role =>
        obtain rfl : createUser db status role = db' := Except.ok.inj hstep
        exact createUser_paid h
      | approveUser userId =>
        refine changeUser_paid hstep fun hu row hrow => ?_
        have : ¬ (row.status ≠ .active ∧ row.earnPaused = false) := fun hc => h ⟨hu, row, hrow, hc⟩
        simp [User.Payable, User.changed]
        grind
      | pauseEarn userId =>
        refine changeUser_paid hstep fun hu row hrow => ?_
        have : ¬ row.Payable := fun hc => h ⟨hu, row, hrow, hc⟩
        simp [User.Payable, User.changed] at this ⊢
        exact this
      | resumeEarn userId =>
        refine changeUser_paid hstep fun hu row hrow => ?_
        have : ¬ (row.status = .active ∧ row.earnPaused = true) := fun hc => h ⟨hu, row, hrow, hc⟩
        simp [User.Payable, User.changed] at this ⊢
        exact this
      | blockUser userId =>
        refine changeUser_paid hstep fun hu row hrow => ?_
        have : ¬ row.Payable := fun hc => h ⟨hu, row, hrow, hc⟩
        simp [User.Payable, User.changed] at this ⊢
        exact this
      | deleteUser userId =>
        exact deleteUser_paid hstep fun hu row hrow hc => h ⟨hu, row, hrow, hc⟩
      | _ => exact absurd hus id
    · refine husers
        ((step_accounts hop hus fun userId parsed quota heq => hadd ?_).of_ok hstep).users
      exact ⟨userId, parsed, quota, heq⟩

/-! ## Spans without a change -/

/-- An accrual at `t` would find nothing left to credit or to skip. -/
def Proxy.CaughtUp (staleMinutes : Int) (t : Timestamp) (r : Proxy) : Prop :=
  ∀ c ∈ r.accrualCursorAt, t ≤ c ∨ ∃ success ∈ r.lastSuccessAt, success + minutes staleMinutes ≤ c

instance (staleMinutes : Int) (t : Timestamp) (r : Proxy) : Decidable (r.CaughtUp staleMinutes t) :=
  inferInstanceAs (Decidable (∀ _ ∈ _, _ ∨ ∃ _ ∈ _, _))

/-- When a user is switched, the user's canonical rows in service are caught up; and when an
election leaves the cursor of a duplicate behind, the owners of the duplicates in service were not
switched since their cursors. -/
def SwitchedCaughtUp (db₀ : Db) (h : List (Event × Db)) : Prop :=
  History.Abides (fun h db ev => ∀ r ∈ db.proxies, r.InService →
    (r.duplicateOf = none → ev.Switches r.userId db →
      r.CaughtUp (healthStaleMinutes db) ev.now) ∧
    (r.duplicateOf ≠ none → ev.Backpays db → ∀ c ∈ r.accrualCursorAt,
      ¬ History.Sometime (fun db ev => ev.Switches r.userId db ∧ c < ev.now) db₀ h)) db₀ h

instance (db₀ : Db) (h : List (Event × Db)) : Decidable (SwitchedCaughtUp db₀ h) :=
  inferInstanceAs (Decidable (History.Abides _ _ _))

/-- An accrual may still reach the instant `τ` of the row, now or, if `elects`, after the election
of the row. -/
structure Proxy.Due (elects : Prop) (staleMinutes : Int) (r : Proxy) (τ : Timestamp) : Prop where
  canonical : elects ∨ r.duplicateOf = none
  inService : r.InService
  isOpen : r.Open staleMinutes τ

theorem Span.due {now : Timestamp} {db : Db} {row : Proxy} {user : User}
    {cursor until_ τ : Timestamp}
    (span : Span now db row user cursor until_) (hle : cursor ≤ τ) (hlt : τ < until_)
    (elects : Prop) : row.Due elects (healthStaleMinutes db) τ where
  canonical := .inr span.accruable.2.2.2.1
  inService := span.accruable.inService
  isOpen := by
    obtain ⟨success, hsuccess, rfl⟩ := span.confirmed
    refine ⟨fun c hc => ?_, fun success' hsuccess' => ?_⟩
    · obtain rfl := Option.some.inj (span.start.symm.trans hc)
      exact hle
    · obtain rfl := Option.some.inj (hsuccess.symm.trans hsuccess')
      exact hlt.trans_le (min_le_right _ _)

theorem due_reaches (now : Timestamp) (db : Db) (elects : Prop) :
    Reaches now db (Proxy.Due elects (healthStaleMinutes db)) where
  credited := by
    intro s row user cursor until_ τ _ hsettings span _ hle hlt
    have hdue := span.due hle hlt elects
    rwa [show healthStaleMinutes s = healthStaleMinutes db by simp [healthStaleMinutes, hsettings]]
      at hdue
  forward := by
    rintro r c c' τ hc hle ⟨hcanonical, hin, hcursor, hsuccess⟩
    refine ⟨hcanonical, ⟨hin.kept, hin.reachable, hin.earning⟩, fun d hd => ?_, hsuccess⟩
    obtain rfl := Option.some.inj (hc.symm.trans hd)
    exact hle.trans (hcursor c' rfl)

/-- An edit lets no accrual reach further back, except by an election. -/
theorem RowEdit.due {lic : Licence} {settled : Prop} {r r' : Proxy} (h : RowEdit lic settled r r')
    (hsound : r.Sound) {τ : Timestamp} (hτ : τ < lic.now) (hdue : r'.Due False lic.staleMinutes τ) :
    r.Due lic.backpays lic.staleMinutes τ := by
  have hnow : r'.accrualCursorAt ≠ some lic.now :=
    fun hc => absurd (hdue.isOpen.1 lic.now hc) (not_le.mpr hτ)
  obtain ⟨hin, hopen⟩ := (h.reopen hsound hdue.inService).resolve_left hnow
  refine ⟨?_, hin, hopen τ hτ hdue.isOpen⟩
  by_cases hdup : r.duplicateOf = none
  · exact .inr hdup
  · have hsingle := hdue.canonical.resolve_left not_false
    exact .inl ((h.release hsound hdup hsingle hdue.inService).resolve_right hnow)

section Runs

variable {db₀ db : Db} {h : List (Event × Db)}

/-- At `τ` the user could be paid, and now cannot, or the other way round. -/
def Otherwise (db : Db) (h : List (Event × Db)) (u : Nat) (τ : Timestamp) : Prop :=
  History.Held Event.now (fun s => ¬ (s.Paid u ↔ db.Paid u)) h τ

theorem Otherwise.congr {db' : Db} {u : Nat} {τ : Timestamp} (ho : Otherwise db h u τ)
    (heq : db'.Paid u ↔ db.Paid u) : Otherwise db' h u τ :=
  History.Held.imp (fun _ _ hne hiff => hne (hiff.trans heq)) ho

/-- What was otherwise at `τ` was switched after `τ`. -/
theorem Runs.switched (hfresh : db₀.Fresh) (run : Runs db₀ h db) {u : Nat} {τ : Timestamp}
    (ho : Otherwise db h u τ) :
    History.Sometime (fun db ev => ev.Switches u db ∧ τ < ev.now) db₀ h := by
  refine run.invariant (I := fun h db => Otherwise db h u τ →
    History.Sometime (fun db ev => ev.Switches u db ∧ τ < ev.now) db₀ h) hfresh nofun ?_ ho
  rintro h s ev s' hrun hwf hI rfl _ (⟨_, hne⟩ | ⟨hlt, ho⟩)
  · exact absurd Iff.rfl hne
  · by_cases hswitch : ev.Switches u s
    · exact History.Sometime.now hrun ⟨hswitch, hlt⟩
    · exact .inr (hI (Otherwise.congr ho (exec_paid hwf.keyed hswitch).symm))

/-- Every instant that an accrual may reach is as payable as the present. -/
def Uniform (elects : Prop) (h : List (Event × Db)) (db : Db) : Prop :=
  Unreached (fun _ u τ => Otherwise db h u τ) (Proxy.Due elects (healthStaleMinutes db)) db

theorem Phased.accounts {lic : Licence} {P : Nat → Prop} {db db' : Db} (h : Phased lic P db db') :
    db'.users = db.users ∧ db'.settings = db.settings := by
  obtain ⟨accrued, hvisits, φ, ids, rfl, _⟩ := h
  exact ⟨hvisits.moved.users, hvisits.moved.settings⟩

theorem Runs.uniform (hfresh : db₀.Fresh) (run : Runs db₀ h db) (hcaught : SwitchedCaughtUp db₀ h) :
    Uniform False h db := by
  refine run.invariant (I := fun h db => SwitchedCaughtUp db₀ h → Uniform False h db) hfresh ?_ ?_
    hcaught
  · intro _ r _ τ _ ho
    exact ho
  · rintro h s ev s' hrun hwf hI hexec heffect hcaught r' hr' τ hdue (⟨_, hne⟩ | ⟨hlt, ho⟩)
    · exact hne Iff.rfl
    have huniform : Uniform False h s := hI hcaught.2
    have hswitched := History.Abides.head hcaught hrun
    cases heffect with
    | proxies hphased =>
      obtain ⟨husers, hsettings⟩ := hphased.accounts
      have hstale : healthStaleMinutes s' = healthStaleMinutes s := by
        simp [healthStaleMinutes, hsettings]
      have ho' : Otherwise s h r'.userId τ :=
        Otherwise.congr ho (by simp [Db.Paid, Db.user?, husers])
      -- the rows that an election may release are uniform as well
      have hwide : Unreached (fun _ u τ => τ < ev.now ∧ Otherwise s h u τ)
          (Proxy.Due (ev.Backpays s) (healthStaleMinutes s)) s := by
        rintro r hr τ ⟨hcanonical, hin, hopen⟩ ⟨_, ho⟩
        by_cases hdup : r.duplicateOf = none
        · exact huniform r hr τ ⟨.inr hdup, hin, hopen⟩ ho
        · obtain ⟨_, c, _, hc, _⟩ := hwf.clocked r hr
          refine (hswitched r hr hin).2 hdup (hcanonical.resolve_right hdup) c hc ?_
          exact (hrun.switched hfresh ho).imp fun _ _ _ hs => ⟨hs.1, (hopen.1 c hc).trans_lt hs.2⟩
      obtain ⟨accrued, hvisits, hedits⟩ := hphased
      have haccrued := hvisits.unreached hwf.keyed (due_reaches _ s (ev.Backpays s)) hwide
      have hedited : Unreached (fun _ u τ => τ < ev.now ∧ Otherwise s h u τ)
          (Proxy.Due False (healthStaleMinutes s)) s' := by
        refine hedits.unreached haccrued fun r hr r' _ _ hedit τ hdue hpast => ?_
        exact hedit.due ((hvisits.wellFormed hwf).sound r hr) hpast.1 hdue
      exact hedited r' hr' τ (hstale ▸ hdue) ⟨hlt, ho'⟩
    | added =>
      rcases List.mem_append.mp hr' with hr | hr
      · exact huniform r' hr τ hdue ho
      · rw [List.mem_singleton.mp hr] at hdue
        exact absurd (hdue.isOpen.1 ev.now rfl) (not_le.mpr hlt)
    | others hsame =>
      have hr : r' ∈ s.proxies := hsame.proxies ▸ hr'
      have hstale : healthStaleMinutes s' = healthStaleMinutes s := by
        simp [healthStaleMinutes, hsame.settings]
      rw [hstale] at hdue
      by_cases hswitch : ev.Switches r'.userId s
      · -- nothing was left to reach when the user was switched
        obtain ⟨_, c, _, hc, _⟩ := hwf.clocked r' hr
        have hle := hdue.isOpen.1 c hc
        have hsingle := hdue.canonical.resolve_left not_false
        rcases (hswitched r' hr hdue.inService).1 hsingle hswitch c hc with
            hnow | ⟨success, hs, hend⟩
        · exact absurd (hnow.trans hle) (not_le.mpr hlt)
        · exact absurd (hend.trans hle) (not_le.mpr (hdue.isOpen.2 success hs))
      · refine huniform r' hr τ hdue (Otherwise.congr ho ?_)
        rw [← hexec]
        exact (exec_paid hwf.keyed hswitch).symm

/-! ## Credited and skipped time -/

/-- A cursor passes no instant that was out of reach of its row. -/
theorem Visits.passed {now : Timestamp} {P : Nat → Prop} {db db' : Db}
    (hvisits : Visits now P db db')
    (hk : Table.Keyed Proxy.id db.proxies) {past : Nat → Nat → Timestamp → Prop}
    (h : Unreached past (Proxy.Due False (healthStaleMinutes db)) db) :
    ∀ r ∈ db.proxies, ∀ r' ∈ db'.proxies, r'.id = r.id → ∀ c ∈ r.accrualCursorAt,
      ∀ c' ∈ r'.accrualCursorAt, ∀ τ, c ≤ τ → τ < c' → ¬ past r.id r.userId τ := by
  have hkeep :
      (CursorsMoved P db db' ∧ Unreached past (Proxy.Due False (healthStaleMinutes db)) db') ∧
      ∀ r ∈ db.proxies, ∀ r' ∈ db'.proxies, r'.id = r.id → ∀ c ∈ r.accrualCursorAt,
        ∀ c' ∈ r'.accrualCursorAt, ∀ τ, c ≤ τ → τ < c' → ¬ past r.id r.userId τ := by
    refine hvisits.keeps (I := fun s =>
      (CursorsMoved P db s ∧ Unreached past (Proxy.Due False (healthStaleMinutes db)) s) ∧
      ∀ r ∈ db.proxies, ∀ r' ∈ s.proxies, r'.id = r.id → ∀ c ∈ r.accrualCursorAt,
        ∀ c' ∈ r'.accrualCursorAt, ∀ τ, c ≤ τ → τ < c' → ¬ past r.id r.userId τ) ?_
          ⟨⟨.refl db, h⟩, ?_⟩
    · rintro i s s' hi ⟨⟨hmoved, hrows⟩, hpassed⟩ hvisit
      have hk' := hmoved.keyed hk
      refine ⟨⟨hmoved.trans (hvisit.moved hi),
        hvisit.unreached hk' (due_reaches _ db False) hrows⟩, ?_⟩
      intro r hr r'' hr'' hid c hc c' hc' τ hle hlt
      rcases hvisit.origin hk' hr'' with hr' | ⟨r', user, cursor, until_, span, rfl⟩
      · exact hpassed r hr r'' hr' hid c hc c' hc' τ hle hlt
      · obtain rfl : until_ = c' := Option.some.inj hc'
        by_cases hpast : τ < cursor
        · exact hpassed r hr r' span.mem hid c hc cursor span.start τ hle hpast
        · have hdue := span.due (not_lt.mp hpast) hlt False
          rw [hmoved.stale] at hdue
          obtain ⟨r₀, hr₀, hsame⟩ := hmoved.origin span.mem
          obtain rfl := hk.eq hr₀ hr (hsame.id.symm.trans hid)
          have howner : r'.userId = r₀.userId := by rw [hsame]
          have hid' : r'.id = r₀.id := hid
          rw [← hid', ← howner]
          exact hrows r' span.mem τ hdue
    · intro r hr r' hr' hid c hc c' hc' τ hle hlt
      rw [hk.eq hr' hr hid] at hc'
      obtain rfl := Option.some.inj (hc.symm.trans hc')
      exact absurd hle (not_le.mpr hlt)
  exact hkeep.2

theorem Runs.unpaid_uncovered (hfresh : db₀.Fresh) (run : Runs db₀ h db) (htimely : Timely h)
    (hcaught : SwitchedCaughtUp db₀ h) : ∀ e ∈ db.ledger, ∀ τ, e.Covers τ →
      ¬ History.Held Event.now (fun s => ¬ s.Paid e.userId) h τ := by
  refine run.invariant (I := fun h db => Timely h → SwitchedCaughtUp db₀ h → ∀ e ∈ db.ledger, ∀ τ,
    e.Covers τ → ¬ History.Held Event.now (fun s => ¬ s.Paid e.userId) h τ) hfresh ?_ ?_ htimely
      hcaught
  · simp [hfresh.ledger]
  · intro h s ev s' hrun hwf hI hexec heffect htimely hcaught e he τ hτ hheld
    have hends := Runs.ended_timely hfresh (hrun.snoc hexec) htimely
    have hlt : τ < ev.now := hτ.2.trans_le (hends e he)
    have hold := hI htimely.tail hcaught.2
    replace hheld := (hheld.resolve_left fun h => absurd h.1 (not_le.mpr hlt)).2
    cases heffect with
    | proxies hphased =>
      obtain ⟨accrued, hvisits, hedits⟩ := hphased
      have hreach : Reaches ev.now s fun r τ =>
          s.Paid r.userId ∧ r.Due False (healthStaleMinutes s) τ := by
        refine ⟨?_, fun hc hle hr => ⟨hr.1, (due_reaches ev.now s False).forward hc hle hr.2⟩⟩
        intro s₁ row user cursor until_ τ husers hsettings span hpay hle hlt
        refine ⟨⟨user, ?_, hpay⟩,
          (due_reaches ev.now s False).credited husers hsettings span hpay hle hlt⟩
        rw [Option.mem_def, ← span.owner, Db.user?, Db.user?, husers]
      have hclear : Clear (fun _ u τ => History.Held Event.now (fun s => ¬ s.Paid u) h τ)
          (fun r τ => s.Paid r.userId ∧ r.Due False (healthStaleMinutes s) τ) s := by
        refine ⟨hold, fun r hr τ hdue hheld => ?_⟩
        exact hrun.uniform hfresh hcaught.2 r hr τ hdue.2
          (hheld.imp fun _ _ hunpaid hiff => hunpaid (hiff.mpr hdue.1))
      have hedited : Clear (fun _ u τ => History.Held Event.now (fun s => ¬ s.Paid u) h τ)
          (fun _ _ => False) s' :=
        hedits.clear (hvisits.clear hwf.keyed hreach hclear) fun _ _ _ _ _ _ _ h => h.elim
      exact hedited.entries e he τ hτ hheld
    | added => exact hold e he τ hτ hheld
    | others hsame => exact hold e (hsame.ledger ▸ he) τ hτ hheld

/-- In every timely run in which users are switched only when their rows are caught up, no entry
covers an instant at which its user was paused or not active, and an accrual that finds a user so
passes no instant at which the user could be paid. -/
theorem paused_time_unpaid (hfresh : db₀.Fresh) (run : Runs db₀ h db) (htimely : Timely h)
    (hcaught : SwitchedCaughtUp db₀ h) :
    (∀ e ∈ db.ledger, ∀ τ, e.Covers τ → ¬ History.Held Event.now
      (fun s => ∃ user ∈ s.user? e.userId, user.earnPaused = true ∨ user.status ≠ .active) h τ) ∧
    ∀ now proxyId includeSuspect db',
      accrueEligibleTimeLocked db now proxyId includeSuspect = .ok db' →
      ∀ r ∈ db.proxies, ¬ db.Paid r.userId → ∀ r' ∈ db'.proxies, r'.id = r.id →
      ∀ c ∈ r.accrualCursorAt, ∀ c' ∈ r'.accrualCursorAt, ∀ τ, c ≤ τ → τ < c' →
      ¬ History.Held Event.now (Db.Paid r.userId) h τ := by
  constructor
  · intro e he τ hτ hheld
    refine run.unpaid_uncovered hfresh htimely hcaught e he τ hτ (hheld.imp fun x _ => ?_)
    rintro ⟨user, huser, hbad⟩ ⟨user', huser', hpay⟩
    obtain rfl := Option.some.inj (huser.symm.trans huser')
    rcases hbad with hpaused | hstatus
    · exact absurd hpaused (by simp [hpay.2])
    · exact hstatus hpay.1
  · intro now proxyId includeSuspect db' haccrue r hr hunpaid r' hr' hid c hc c' hc' τ hle hlt hheld
    have hk := (run.wellFormed hfresh).keyed
    have hvisits := (accrueEligibleTimeLocked_does hk proxyId includeSuspect).of_ok haccrue
    refine hvisits.passed hk (run.uniform hfresh hcaught) r hr r' hr' hid c hc c' hc' τ hle hlt ?_
    exact hheld.imp fun _ _ hpaid hiff => hunpaid (hiff.mp hpaid)

end Runs

/-! ## Three runs -/

open Scenario in
/-- A proxy that has been qualified. -/
def qualifiedProxy : List Event :=
  [minute 0 (.addProxy 1 (endpoint "192.0.2.1") none),
    minute 1 (.applyHealthResult 1 (liveFrom "198.51.100.7")),
    minute 2 (.applyEarnappResult 1 (allowedFrom "198.51.100.7"))]

open Scenario in
/-- Accruals run when the user is paused and when the user is resumed. -/
def pauseBetweenAccruals : List Event :=
  qualifiedProxy ++ [minute 10 .accrueEligibleTime, minute 10 (.pauseEarn 1),
    minute 50 .accrueEligibleTime, minute 50 (.resumeEarn 1), minute 60 .accrueEligibleTime]

open Scenario in
theorem paused_time_unpaid_pauseBetweenAccruals :
    ((after oneUser pauseBetweenAccruals).ledger.map fun e => (e.startedAt, e.endedAt)) =
        [(minutes 2, minutes 10), (minutes 50, minutes 60)] ∧
      (∀ e ∈ (after oneUser pauseBetweenAccruals).ledger, ∀ τ, e.Covers τ →
        ¬ History.Held Event.now
          (fun s => ∃ user ∈ s.user? e.userId, user.earnPaused = true ∨ user.status ≠ .active)
          (history oneUser pauseBetweenAccruals) τ) ∧
      ∀ now proxyId includeSuspect db',
        accrueEligibleTimeLocked (after oneUser pauseBetweenAccruals) now proxyId includeSuspect =
          .ok db' →
        ∀ r ∈ (after oneUser pauseBetweenAccruals).proxies,
          ¬ (after oneUser pauseBetweenAccruals).Paid r.userId → ∀ r' ∈ db'.proxies, r'.id = r.id →
          ∀ c ∈ r.accrualCursorAt, ∀ c' ∈ r'.accrualCursorAt, ∀ τ, c ≤ τ → τ < c' →
          ¬ History.Held Event.now (Db.Paid r.userId) (history oneUser pauseBetweenAccruals) τ :=
  ⟨by decide, paused_time_unpaid oneUser_fresh (runs oneUser pauseBetweenAccruals) (by decide)
    (by decide)⟩

open Scenario in
/-- No accrual runs between the pause and the resumption. -/
def pauseWithoutAccrual : List Event :=
  qualifiedProxy ++ [minute 10 (.pauseEarn 1), minute 50 (.resumeEarn 1),
    minute 60 .accrueEligibleTime]

open Scenario in
/-- An accrual comes after the pause. -/
def pauseBeforeAccrual : List Event :=
  qualifiedProxy ++ [minute 50 (.pauseEarn 1), minute 60 .accrueEligibleTime]

open Scenario in
/-- Paused time is paid in the first run, and time before the pause is lost in the second. -/
theorem paused_time_paid_pauseWithoutAccrual :
    (oneUser.Fresh ∧
      Runs oneUser (history oneUser pauseWithoutAccrual) (after oneUser pauseWithoutAccrual) ∧
      Timely (history oneUser pauseWithoutAccrual) ∧
      ((after oneUser pauseWithoutAccrual).ledger.map fun e => (e.startedAt, e.endedAt)) =
        [(minutes 2, minutes 60)] ∧
      ∃ e ∈ (after oneUser pauseWithoutAccrual).ledger, e.Covers (minutes 30) ∧
        History.Held Event.now (fun s => ∃ user ∈ s.user? e.userId, user.earnPaused = true)
          (history oneUser pauseWithoutAccrual) (minutes 30)) ∧
    Runs oneUser (history oneUser pauseBeforeAccrual) (after oneUser pauseBeforeAccrual) ∧
      Timely (history oneUser pauseBeforeAccrual) ∧
      (after oneUser pauseBeforeAccrual).ledger = [] ∧
      ((after oneUser pauseBeforeAccrual).proxies.map Proxy.accrualCursorAt) =
        [some (minutes 60)] ∧
      History.Held Event.now
        (fun s => s.Paid 1 ∧ ∃ r ∈ s.proxies, r.InService ∧ r.duplicateOf = none)
        (history oneUser pauseBeforeAccrual) (minutes 30) :=
  ⟨⟨oneUser_fresh, runs oneUser pauseWithoutAccrual, by decide, by decide, by decide⟩,
    runs oneUser pauseBeforeAccrual, by decide, by decide, by decide, by decide⟩

end EarnProxy
