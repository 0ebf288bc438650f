import EarnProxy.Coverage

/-!
# No confirmed time is lost

An accrual credits the time from the cursor of a row to the end of its confirmed window. Whatever
ends that window, restarts the cursor or takes the eligibility of the row away must credit the time
first. The results of the checks do; a replacement and an archive do not, nor does the loss of the
canonical place or of an account that may be paid.
-/

namespace EarnProxy

open Transaction

/-- Some entry of row `i` covers part of the second that starts at `τ`. An entry has whole seconds,
so that fractions are lost where a span ends. -/
def Db.Covered (db : Db) (i : Nat) (τ : Timestamp) : Prop :=
  ∃ e ∈ db.ledger, e.proxyId = i ∧ e.startedAt < τ + seconds 1 ∧ τ < e.endedAt

/-- The columns by which an accrual reaches the two seconds that start at `τ`. -/
structure Proxy.Outstanding (staleMinutes : Int) (τ : Timestamp) (r : Proxy) : Prop where
  up : r.status.up = true
  earning : r.eligibility.Earning
  reachable : r.exitIp ≠ none
  attested : r.egressAttestationSource ≠ none
  cursor : ∃ c ∈ r.accrualCursorAt, c ≤ τ
  confirmed : ∃ success ∈ r.lastSuccessAt, τ + seconds 2 ≤ success + minutes staleMinutes

/-- The row is kept and canonical, and under this credential. -/
structure Proxy.Stands (generation : Nat) (r : Proxy) : Prop where
  kept : r.archivedAt = none
  canonical : r.duplicateOf = none
  credential : r.credentialGeneration = generation

/-- Row `i` stands, and its owner may be paid. -/
def Db.Stands (db : Db) (i generation : Nat) : Prop :=
  ∃ r ∈ db.proxies, r.id = i ∧ r.Stands generation ∧ ∃ user ∈ db.user? r.userId, user.Payable

/-- Row `i` stands, and an accrual would credit the seconds from `τ` on to it. -/
def Db.Owes (db : Db) (i generation : Nat) (τ : Timestamp) : Prop :=
  ∃ r ∈ db.proxies, r.id = i ∧ r.Outstanding (healthStaleMinutes db) τ ∧ r.Stands generation ∧
    ∃ user ∈ db.user? r.userId, user.Payable

/-! ## What leaves a row its time -/

/-- The columns of `Outstanding` say the same. -/
structure Proxy.Carried (r r' : Proxy) : Prop where
  id : r'.id = r.id
  status : r'.status = r.status
  eligibility : r'.eligibility = r.eligibility
  reachable : r.exitIp ≠ none → r'.exitIp ≠ none
  attested : r.egressAttestationSource ≠ none → r'.egressAttestationSource ≠ none
  cursor : r'.accrualCursorAt = r.accrualCursorAt
  success : r'.lastSuccessAt = r.lastSuccessAt
  generation : r'.credentialGeneration = r.credentialGeneration

theorem Proxy.Carried.refl (r : Proxy) : r.Carried r :=
  ⟨rfl, rfl, rfl, fun h => h, fun h => h, rfl, rfl, rfl⟩

theorem Proxy.Carried.trans {r r' r'' : Proxy} (h : r.Carried r') (h' : r'.Carried r'') :
    r.Carried r'' where
  id := h'.id.trans h.id
  status := h'.status.trans h.status
  eligibility := h'.eligibility.trans h.eligibility
  reachable := h'.reachable ∘ h.reachable
  attested := h'.attested ∘ h.attested
  cursor := h'.cursor.trans h.cursor
  success := h'.success.trans h.success
  generation := h'.generation.trans h.generation

theorem Proxy.Carried.due {r r' : Proxy} (h : r.Carried r') {staleMinutes : Int} {τ : Timestamp}
    (hr : r.Outstanding staleMinutes τ) : r'.Outstanding staleMinutes τ where
  up := h.status ▸ hr.up
  earning := h.eligibility ▸ hr.earning
  reachable := h.reachable hr.reachable
  attested := h.attested hr.attested
  cursor := h.cursor ▸ hr.cursor
  confirmed := h.success ▸ hr.confirmed

/-- What was covered for row `i` stays covered, and its row is carried over. -/
structure Carries (i : Nat) (db db' : Db) : Prop where
  settings : db'.settings = db.settings
  covered : ∀ τ, db.Covered i τ → db'.Covered i τ
  row : ∀ r ∈ db.proxies, r.id = i → ∃ r' ∈ db'.proxies, r.Carried r'

variable {i generation : Nat} {τ now wall : Timestamp} {db db' db'' : Db}

theorem Carries.refl (i : Nat) (db : Db) : Carries i db db :=
  ⟨rfl, fun _ h => h, fun r hr _ => ⟨r, hr, .refl r⟩⟩

theorem Carries.trans (h : Carries i db db') (h' : Carries i db' db'') : Carries i db db'' where
  settings := h'.settings.trans h.settings
  covered := fun τ hτ => h'.covered τ (h.covered τ hτ)
  row := by
    intro r hr hid
    obtain ⟨r', hr', hcarried⟩ := h.row r hr hid
    obtain ⟨r'', hr'', hcarried'⟩ := h'.row r' hr' (hcarried.id.trans hid)
    exact ⟨r'', hr'', hcarried.trans hcarried'⟩

theorem stale_of_settings (h : db'.settings = db.settings) :
    healthStaleMinutes db' = healthStaleMinutes db := by
  unfold healthStaleMinutes
  rw [h]

/-- A row that is due and stands is owed. -/
theorem Db.Stands.owes (hstands : db.Stands i generation) (hk : Table.Keyed Proxy.id db.proxies)
    {r : Proxy} (hr : r ∈ db.proxies) (hid : r.id = i)
    (hdue : r.Outstanding (healthStaleMinutes db) τ) :
    db.Owes i generation τ := by
  obtain ⟨r', hr', hid', hrow, hpayable⟩ := hstands
  obtain rfl := hk.eq hr hr' (hid.trans hid'.symm)
  exact ⟨r, hr, hid, hdue, hrow, hpayable⟩

theorem Carries.owes (h : Carries i db db') (hk : Table.Keyed Proxy.id db'.proxies)
    (hstands : db'.Stands i generation) (howes : db.Owes i generation τ) :
    db'.Owes i generation τ := by
  obtain ⟨r, hr, hid, hdue, -, -⟩ := howes
  obtain ⟨r', hr', hcarried⟩ := h.row r hr hid
  refine hstands.owes hk hr' (hcarried.id.trans hid) ?_
  rw [stale_of_settings h.settings]
  exact hcarried.due hdue

/-- The bucket says nothing about what is covered. -/
theorem covered_relabel {p : LedgerEntry → Prop} [DecidablePred p] {bucket : Bucket}
    (hledger : db'.ledger = Table.update p (fun e => { e with bucket := bucket }) db.ledger)
    (h : db.Covered i τ) : db'.Covered i τ := by
  obtain ⟨e, he, hid, hcovers⟩ := h
  refine ⟨_, hledger ▸ Table.mem_update.mpr ⟨e, he, rfl⟩, ?_⟩
  split <;> exact ⟨hid, hcovers⟩

theorem Carries.of_rows {φ : Proxy → Proxy} {ids : List Nat}
    (hφ : ∀ r ∈ db.proxies, r.id = i → r.Carried (φ r)) :
    Carries i db { db with proxies := db.proxies.map φ, ledger := expireIn ids db.ledger } where
  settings := rfl
  covered := fun _ => covered_relabel rfl
  row := fun r hr hid => ⟨φ r, List.mem_map_of_mem hr, hφ r hr hid⟩

theorem Carries.of_others (hproxies : db'.proxies = db.proxies) (hledger : db'.ledger = db.ledger)
    (hsettings : db'.settings = db.settings) : Carries i db db' where
  settings := hsettings
  covered := by
    intro τ h
    unfold Db.Covered
    rwa [hledger]
  row := fun r hr _ => ⟨r, hproxies ▸ hr, .refl r⟩

theorem updateProxy_carries {j : Nat} {f : Proxy → Proxy}
    (hf : ∀ r ∈ db.proxies, r.id = i → i = j → r.Carried (f r)) :
    Carries i db (db.updateProxy j f) where
  settings := rfl
  covered := fun _ h => h
  row := by
    intro r hr hid
    refine ⟨_, Table.mem_update.mpr ⟨r, hr, rfl⟩, ?_⟩
    split
    · exact hf r hr hid (hid.symm.trans ‹_›)
    · exact .refl r

theorem expirePendingCycle_carries {j : Nat} (h : expirePendingCycle db j = .ok db') :
    Carries i db db' := by
  rw [expirePendingCycle_ok h]
  exact ⟨rfl, fun _ => covered_relabel rfl, fun r hr _ => ⟨r, hr, .refl r⟩⟩

theorem resetProbation_carries {j : Nat} (hj : i ≠ j) (h : resetProbation db j now = .ok db') :
    Carries i db db' := by
  rw [resetProbation_ok h]
  refine ⟨rfl, fun _ => covered_relabel rfl, fun r hr hid => ⟨r, ?_, .refl r⟩⟩
  exact Table.mem_update.mpr ⟨r, hr, if_neg fun h => hj (hid.symm.trans h)⟩

/-! ## The groups -/

theorem Proxy.rehomed_carried (exitIp : IpAddress) (canonical : Nat) (excludeId : Option Nat)
    (r : Proxy) : r.Carried (r.rehomed exitIp canonical excludeId) := by
  unfold Proxy.rehomed
  split_ifs <;> exact ⟨rfl, rfl, rfl, fun h => h, fun h => h, rfl, rfl, rfl⟩

theorem canonicalizeExitGroup_carries {exitIp : IpAddress} {prefer : Bool} {excludeId : Option Nat}
    (h : canonicalizeExitGroup db exitIp prefer excludeId wall = .ok db') : Carries i db db' := by
  unfold canonicalizeExitGroup at h
  split at h
  · obtain rfl := Except.ok.inj h
    exact .refl i db
  · obtain ⟨expired, hexpired, h⟩ := ok_of_bind h
    rw [← Except.ok.inj h, expireAll_ok hexpired]
    simp only [rehome_eq_map]
    exact .of_rows fun r _ _ => Proxy.rehomed_carried _ _ _ r

theorem Proxy.reconciled_carried (r : Proxy) (exitIp : IpAddress) (source : AttestationSource)
    (wall : Timestamp) : r.Carried (r.reconciled exitIp source wall) :=
  ⟨rfl, rfl, rfl, fun _ => by simp [Proxy.reconciled], fun _ => by simp [Proxy.reconciled], rfl,
    rfl, rfl⟩

theorem reconcileExit_carries {j : Nat} {exitIp : IpAddress} {source : AttestationSource}
    (h : reconcileExit db j exitIp source wall = .ok db') : Carries i db db' := by
  unfold reconcileExit at h
  split at h
  · obtain rfl := Except.ok.inj h
    exact .refl i db
  · obtain ⟨grouped, hgrouped, h⟩ := ok_of_bind h
    have hfirst : Carries i db grouped :=
      (updateProxy_carries fun r _ _ _ => r.reconciled_carried exitIp source wall).trans
        (canonicalizeExitGroup_carries hgrouped)
    split at h
    · split at h
      · obtain rfl := Except.ok.inj h
        exact hfirst
      · exact hfirst.trans (canonicalizeExitGroup_carries h)
    · obtain rfl := Except.ok.inj h
      exact hfirst

/-- A promotion leaves a canonical row that is up alone. -/
theorem promoteDuplicateIfDue_carries {j : Nat} {out : Db × Option Nat} {r : Proxy}
    (hk : Table.Keyed Proxy.id db.proxies) (hr : r ∈ db.proxies) (hup : r.status.up = true)
    (hcanonical : r.duplicateOf = none) (h : promoteDuplicateIfDue db j now = .ok out) :
    r ∈ out.1.proxies ∧ Carries r.id db out.1 := by
  unfold promoteDuplicateIfDue at h
  split at h
  · obtain rfl := Except.ok.inj h
    exact ⟨hr, .refl _ db⟩
  rename_i canonical hfound
  obtain rfl : canonical.id = j := Table.key_of_lookup hfound
  split at h
  · obtain rfl := Except.ok.inj h
    exact ⟨hr, .refl _ db⟩
  rename_i hdue
  have hne : r.id ≠ canonical.id := by
    intro hid
    obtain rfl := hk.eq hr (Table.mem_of_lookup hfound) hid
    rcases (not_not.mp hdue).1 with hs | hs <;> simp [hs, ProxyStatus.up] at hup
  split at h
  · obtain rfl := Except.ok.inj h
    exact ⟨hr, .refl _ db⟩
  rename_i candidate hcandidate
  obtain ⟨hmem, hpromotable, -⟩ := promotionCandidate_mem hcandidate
  have hother : r.id ≠ candidate.id := by
    intro hid
    obtain rfl := hk.eq hr hmem hid
    rw [hcanonical] at hpromotable
    cases hpromotable
  have hcandidate' : candidate.id ≠ canonical.id :=
    promotionCandidate_ne hk (Table.mem_of_lookup hfound) (not_not.mp hdue) hcandidate
  obtain ⟨expired, hexpired, h⟩ := ok_of_bind h
  obtain ⟨promoted, hpromoted, h⟩ := ok_of_bind h
  obtain rfl := Except.ok.inj h
  have hsame : r.promoted canonical.id candidate.id = r := by
    simp [Proxy.promoted, hne, hother, hcanonical]
  rw [expirePendingCycle_ok hexpired] at hpromoted
  have hstays : r ∈ promoted.proxies := by
    rw [resetProbation_ok hpromoted]
    refine Table.mem_update.mpr ⟨r, ?_, if_neg hother⟩
    simp only [promoteRows_eq_map hcandidate']
    exact List.mem_map.mpr ⟨r, hr, hsame⟩
  refine ⟨hstays, ?_⟩
  rw [resetProbation_ok hpromoted] at hstays ⊢
  refine ⟨rfl, fun τ hτ => covered_relabel rfl (@covered_relabel _ _ db _ _ _ _ rfl hτ), ?_⟩
  intro s hs hid
  obtain rfl := hk.eq hs hr hid
  exact ⟨s, hstays, .refl s⟩

/-! ## What an accrual covers -/

theorem insertEntry_covered {e : LedgerEntry} (h : db.Covered i τ) :
    (db.insertEntry e).Covered i τ := by
  obtain ⟨e', he', hcovers⟩ := h
  unfold Db.insertEntry
  split
  · exact ⟨e', he', hcovers⟩
  · exact ⟨e', List.mem_append_left _ he', hcovers⟩

/-- An insert that is ignored finds the interval in the ledger. -/
theorem insertEntry_covers {e : LedgerEntry} (he : e.startedAt < τ + seconds 1 ∧ τ < e.endedAt) :
    (db.insertEntry e).Covered e.proxyId τ := by
  unfold Db.insertEntry
  split
  · rename_i hkey
    obtain ⟨e', he', hkey⟩ := List.mem_map.mp hkey
    simp only [LedgerEntry.key, Prod.mk.injEq] at hkey
    obtain ⟨hid, hstart, hend, -⟩ := hkey
    refine ⟨e', he', hid, ?_⟩
    rwa [hstart, hend]
  · exact ⟨e, List.mem_append_right _ (List.mem_singleton.mpr rfl), rfl, he⟩

theorem wholeSeconds_ne_zero {start stop : Int} (h : start + seconds 1 ≤ stop) :
    wholeSeconds (stop - start) ≠ 0 := by
  unfold wholeSeconds seconds at *
  omega

/-- Of a span that is cut in two, the piece that is lost is shorter than a second. -/
theorem piece_of_cut {cursor unlockAt until_ τ : Int} (hfrom : cursor ≤ τ)
    (hbelow : τ + seconds 2 ≤ until_) :
    (cursor + seconds 1 ≤ unlockAt ∧ cursor < τ + seconds 1 ∧ τ < unlockAt) ∨
      (unlockAt + seconds 1 ≤ until_ ∧ unlockAt < τ + seconds 1 ∧ τ < until_) := by
  unfold seconds at *
  omega

/-- A span in one piece. -/
theorem piece_of_whole {cursor until_ τ : Int} (hfrom : cursor ≤ τ)
    (hbelow : τ + seconds 2 ≤ until_) :
    cursor + seconds 1 ≤ until_ ∧ cursor < τ + seconds 1 ∧ τ < until_ := by
  unfold seconds at *
  omega

section Entry

variable {userId proxyId rate : Nat} {startedAt endedAt createdAt : Timestamp} {bucket : Bucket}

theorem addLedgerEntry_covered (h : db.Covered i τ) :
    (addLedgerEntry db userId proxyId startedAt endedAt rate bucket createdAt).Covered i τ := by
  unfold addLedgerEntry
  dsimp only
  split
  · exact h
  · exact insertEntry_covered h

theorem addLedgerEntry_covers (hlong : startedAt + seconds 1 ≤ endedAt)
    (hfrom : startedAt < τ + seconds 1)
    (hbelow : τ < endedAt) :
    Db.Covered (addLedgerEntry db userId proxyId startedAt endedAt rate bucket createdAt) proxyId
      τ := by
  have hduration : wholeSeconds (endedAt - startedAt) ≠ 0 := wholeSeconds_ne_zero hlong
  unfold addLedgerEntry
  dsimp only
  rw [if_neg hduration]
  exact insertEntry_covers ⟨hfrom, hbelow⟩

theorem addLedgerEntry_tables :
    (addLedgerEntry db userId proxyId startedAt endedAt rate bucket createdAt).proxies =
      db.proxies ∧
    (addLedgerEntry db userId proxyId startedAt endedAt rate bucket createdAt).settings =
      db.settings := by
  unfold addLedgerEntry Db.insertEntry
  dsimp only
  split_ifs <;> exact ⟨rfl, rfl⟩

end Entry

section Credit

variable {row : Proxy} {user : User} {cursor until_ probation current : Timestamp} {rate : Nat}
  {staleMinutes : Int}

theorem creditRow_carries (i : Nat)
    (h : creditRow db row cursor until_ probation current rate = .ok db') : Carries i db db' := by
  have hadds {db₁ db₂ : Db} {a b : Timestamp} {bucket : Bucket} (hsame : Carries i db₁ db₂) :
      Carries i db₁ (addLedgerEntry db₂ row.userId row.id a b rate bucket current) := by
    obtain ⟨hproxies, hsettings⟩ :=
      @addLedgerEntry_tables db₂ row.userId row.id rate a b current bucket
    refine hsame.trans
      ⟨hsettings, fun _ h => addLedgerEntry_covered h, fun r hr _ => ⟨r, ?_, .refl r⟩⟩
    rwa [hproxies]
  unfold creditRow at h
  dsimp only at h
  split at h
  · obtain ⟨unlocked, hunlocked, h⟩ := ok_of_bind h
    have hunlock : Carries i db unlocked := by
      rw [Db.moveEntries_ok hunlocked]
      exact ⟨rfl, fun _ => covered_relabel rfl, fun r hr _ => ⟨r, hr, .refl r⟩⟩
    split at h <;> rw [← Except.ok.inj h]
    · exact hadds (hadds hunlock)
    · exact hadds hunlock
  · rw [← Except.ok.inj h]
    exact hadds (.refl i db)

theorem creditRow_covers (hfrom : cursor ≤ τ) (hbelow : τ + seconds 2 ≤ until_)
    (h : creditRow db row cursor until_ probation current rate = .ok db') :
    db'.Covered row.id τ := by
  obtain ⟨hlong, hstart, hend⟩ := piece_of_whole hfrom hbelow
  unfold creditRow at h
  dsimp only at h
  split at h
  · obtain ⟨unlocked, -, h⟩ := ok_of_bind h
    split at h <;> rw [← Except.ok.inj h]
    · obtain ⟨hlong, hstart, hend⟩ | ⟨hlong, hstart, hend⟩ := piece_of_cut hfrom hbelow
      · exact addLedgerEntry_covered (addLedgerEntry_covers hlong hstart hend)
      · exact addLedgerEntry_covers hlong hstart hend
    · exact addLedgerEntry_covers hlong hstart hend
  · rw [← Except.ok.inj h]
    exact addLedgerEntry_covers hlong hstart hend

theorem setCursor_covered {j : Nat} {at_ : Timestamp} (h : db.Covered i τ) :
    (setCursor db j at_).Covered i τ := h

theorem accrueRow_covered (hcovered : db.Covered i τ)
    (h : accrueRow current staleMinutes db row user = .ok db') : db'.Covered i τ := by
  unfold accrueRow at h
  dsimp only at h
  split at h
  · exact Except.ok.inj h ▸ hcovered
  split at h
  · exact Except.ok.inj h ▸ hcovered
  split at h
  · exact Except.ok.inj h ▸ setCursor_covered hcovered
  split at h
  · exact Except.ok.inj h ▸ hcovered
  split at h
  · exact Except.ok.inj h ▸ hcovered
  obtain ⟨credited, hcredited, h⟩ := ok_of_bind h
  exact Except.ok.inj h ▸ setCursor_covered ((creditRow_carries i hcredited).covered τ hcovered)

theorem accrueRow_carries (hi : i ≠ row.id)
    (h : accrueRow current staleMinutes db row user = .ok db') :
    Carries i db db' := by
  have hmoves {db₁ : Db} {at_ : Timestamp} : Carries i db₁ (setCursor db₁ row.id at_) :=
    updateProxy_carries fun _ _ _ hrow => absurd hrow hi
  unfold accrueRow at h
  dsimp only at h
  split at h
  · exact Except.ok.inj h ▸ .refl i db
  split at h
  · exact Except.ok.inj h ▸ .refl i db
  split at h
  · exact Except.ok.inj h ▸ hmoves
  split at h
  · exact Except.ok.inj h ▸ .refl i db
  split at h
  · exact Except.ok.inj h ▸ .refl i db
  obtain ⟨credited, hcredited, h⟩ := ok_of_bind h
  exact Except.ok.inj h ▸ (creditRow_carries i hcredited).trans hmoves

/-- A visit covers what was due. -/
theorem accrueRow_covers (hdue : row.Outstanding staleMinutes τ) (hpayable : user.Payable)
    (hpast : τ + seconds 2 ≤ current)
    (h : accrueRow current staleMinutes db row user = .ok db') : db'.Covered row.id τ := by
  obtain ⟨cursor, hcursor, hfrom⟩ := hdue.cursor
  obtain ⟨success, hsuccess, hwindow⟩ := hdue.confirmed
  unfold accrueRow at h
  rw [Option.mem_def.mp hsuccess, Option.mem_def.mp hcursor] at h
  dsimp only [Option.getD_some] at h
  set until_ := min current (success + minutes staleMinutes) with huntil
  have hbelow : τ + seconds 2 ≤ until_ := le_min hpast hwindow
  obtain ⟨hlong, hstart, hend⟩ := piece_of_whole hfrom hbelow
  have hforward : ¬ until_ ≤ cursor := not_le.mpr (hfrom.trans_lt hend)
  have hrate : monthlyRateFor row.eligibility row.countryCode ≠ 0 := by
    rcases hdue.earning with he | he
    · simp only [he, monthlyRateFor]
      split <;> decide
    · simp [he, monthlyRateFor, nonUsMonthlyMicroUsd]
  rw [if_neg hforward, if_neg (not_not.mpr hpayable), if_neg hrate,
    if_neg (wholeSeconds_ne_zero hlong)] at h
  obtain ⟨credited, hcredited, h⟩ := ok_of_bind h
  rw [← Except.ok.inj h]
  exact setCursor_covered (creditRow_covers hfrom hbelow hcredited)

end Credit

/-- An accrual that reads row `i` covers what was due to it. -/
theorem accrue_covers {proxyId : Option Nat} {includeSuspect : Bool} {r : Proxy} {user : User}
    (hrow : (r, user) ∈ accrualRows db proxyId includeSuspect) (hpayable : user.Payable)
    (hdue : r.Outstanding (healthStaleMinutes db) τ) (hpast : τ + seconds 2 ≤ now)
    (h : accrueEligibleTimeLocked db now proxyId includeSuspect = .ok db') :
    db'.Covered r.id τ := by
  unfold accrueEligibleTimeLocked at h
  obtain ⟨before, rest, hrows⟩ := List.append_of_mem hrow
  rw [hrows, List.foldlM_append] at h
  obtain ⟨s, -, h⟩ := ok_of_bind h
  rw [List.foldlM_cons] at h
  obtain ⟨s', hs', h⟩ := ok_of_bind h
  have hcovered : s'.Covered r.id τ := accrueRow_covers hdue hpayable hpast hs'
  exact ok_of_foldlM (I := fun _ s => s.Covered r.id τ)
    (fun _ _ _ _ hs hstep => accrueRow_covered hs hstep) rest s' db' hcovered h

/-- An accrual that does not read row `i` leaves it its time. -/
theorem accrue_carries {proxyId : Option Nat} {includeSuspect : Bool}
    (hrows : ∀ p ∈ accrualRows db proxyId includeSuspect, p.1.id ≠ i)
    (h : accrueEligibleTimeLocked db now proxyId includeSuspect = .ok db') : Carries i db db' := by
  unfold accrueEligibleTimeLocked at h
  have hcarries : (∀ p ∈ ([] : List (Proxy × User)), p.1.id ≠ i) ∧ Carries i db db' := by
    refine ok_of_foldlM (I := fun rest s => (∀ p ∈ rest, p.1.id ≠ i) ∧ Carries i db s) ?_ _ db db'
      ⟨hrows, .refl i db⟩ h
    rintro p rest s s' ⟨hne, hs⟩ hstep
    exact ⟨fun q hq => hne q (List.mem_cons_of_mem p hq),
      hs.trans (accrueRow_carries (hne p List.mem_cons_self).symm hstep)⟩
  exact hcarries.2

theorem accrueProxyTime_carries {j : Nat} (hj : i ≠ j) (h : accrueProxyTime db j now = .ok db') :
    Carries i db db' := by
  refine accrue_carries (fun p hp hid => hj ?_) h
  obtain ⟨-, ⟨-, hselected⟩, -⟩ := mem_accrualRows hp
  exact hid.symm.trans (hselected j rfl)

/-- What is owed to a row can be accrued. -/
theorem Db.Owes.accruable (howes : db.Owes i generation τ) :
    ∃ r user, r ∈ db.proxies ∧ r.id = i ∧ r.Outstanding (healthStaleMinutes db) τ ∧
      r.Stands generation ∧
      db.user? r.userId = some user ∧ user.Payable ∧ r.Accruable true := by
  obtain ⟨r, hr, hid, hdue, hstands, user, huser, hpayable⟩ := howes
  refine ⟨r, user, hr, hid, hdue, hstands, huser, hpayable, hstands.kept, ?_, hdue.earning,
    hstands.canonical, hdue.reachable, hdue.attested⟩
  have hup := hdue.up
  cases hs : r.status <;> simp_all [ProxyStatus.up]

theorem mem_accrualRows_of {proxyId : Option Nat} {includeSuspect : Bool} {r : Proxy} {user : User}
    (hr : r ∈ db.proxies) (haccruable : r.Accruable includeSuspect)
    (hselected : ∀ j ∈ proxyId, r.id = j)
    (huser : db.user? r.userId = some user) :
    (r, user) ∈ accrualRows db proxyId includeSuspect := by
  refine List.mem_filterMap.mpr ⟨r, List.mem_filter.mpr ⟨hr, ?_⟩, by simp [huser]⟩
  exact decide_eq_true ⟨haccruable, hselected⟩

theorem Db.Owes.accrueProxyTime (howes : db.Owes i generation τ) (hpast : τ + seconds 2 ≤ now)
    (h : accrueProxyTime db i now = .ok db') : db'.Covered i τ := by
  obtain ⟨r, user, hr, rfl, hdue, -, huser, hpayable, haccruable⟩ := howes.accruable
  exact accrue_covers (mem_accrualRows_of hr haccruable (by simp) huser) hpayable hdue hpast h

/-! ## What a result covers -/

theorem resetProbation_covered {j : Nat} (hcovered : db.Covered i τ)
    (h : resetProbation db j now = .ok db') : db'.Covered i τ := by
  rw [resetProbation_ok h]
  exact covered_relabel rfl hcovered

/-- The instant is covered, or the row is still due. -/
structure Settles (i : Nat) (τ : Timestamp) (db db' : Db) : Prop where
  settings : db'.settings = db.settings
  settled : db'.Covered i τ ∨ ∃ r ∈ db'.proxies, r.id = i ∧ r.Outstanding (healthStaleMinutes db) τ

theorem Carries.settles (h : Carries i db db') (howes : db.Owes i generation τ) :
    Settles i τ db db' := by
  obtain ⟨r, hr, hid, hdue, -, -⟩ := howes
  obtain ⟨r', hr', hcarried⟩ := h.row r hr hid
  exact ⟨h.settings, .inr ⟨r', hr', hcarried.id.trans hid, hcarried.due hdue⟩⟩

theorem Settles.carries (h : Settles i τ db db') (h' : Carries i db' db'') :
    Settles i τ db db'' := by
  refine ⟨h'.settings.trans h.settings, h.settled.imp (h'.covered τ) ?_⟩
  rintro ⟨r, hr, hid, hdue⟩
  obtain ⟨r', hr', hcarried⟩ := h'.row r hr hid
  exact ⟨r', hr', hcarried.id.trans hid, hcarried.due hdue⟩

theorem Settles.owes (h : Settles i τ db db') (hk : Table.Keyed Proxy.id db'.proxies)
    (hstands : db'.Stands i generation) : db'.Covered i τ ∨ db'.Owes i generation τ := by
  refine h.settled.imp_right ?_
  rintro ⟨r, hr, hid, hdue⟩
  refine hstands.owes hk hr hid ?_
  rwa [stale_of_settings h.settings]

theorem accrueProxyTime_settings {j : Nat} (hk : Table.Keyed Proxy.id db.proxies)
    (h : accrueProxyTime db j now = .ok db') : db'.settings = db.settings :=
  ((accrueProxyTime_does hk j).of_ok h).moved.settings

section Health

variable {r : Proxy} {result : HealthResult} {staleMinutes : Int} {settings : CheckerSettings}

/-- A live result that leaves the cycle alone confirms the row anew. -/
theorem Proxy.Outstanding.seenLive (hdue : r.Outstanding staleMinutes τ) (hstale : 0 ≤ staleMinutes)
    (hpast : τ + seconds 2 ≤ now) {o : LiveObservation}
    (ho : o = observeLive r result settings.healthStaleMinutes now)
    (hbreaks : o.breaksCycle = false) :
    (r.seenLive r result o settings now).Outstanding staleMinutes τ := by
  obtain ⟨success, hsuccess, -⟩ := hdue.confirmed
  have hfacts : o.recoveredFromOffline = false ∧ o.unobservedRecovery = false ∧
      o.missingTrustedEgress = false := by
    subst ho
    have hup := hdue.up
    refine ⟨?_, ?_, ?_⟩
    · cases hs : r.status <;> simp_all [observeLive, ProxyStatus.up, ProxyStatus.down]
    · simp [observeLive, Option.mem_def.mp hsuccess]
    · cases hexit : r.exitIp with
      | none => exact absurd hexit hdue.reachable
      | some ip => simp [observeLive, hexit]
  obtain ⟨hrecovered, hunobserved, hmissing⟩ := hfacts
  have hbreaks' : o.egressChanged = false ∧ o.untrustedEgressMismatch = false := by
    simp only [LiveObservation.breaksCycle, Bool.or_eq_false_iff] at hbreaks
    exact hbreaks.1
  have hreset : o.continuityReset = false := by
    simp [LiveObservation.continuityReset, hrecovered, hunobserved, hbreaks]
  have hloses : o.losesEligibility = false := by
    simp [LiveObservation.losesEligibility, hbreaks'.1, hbreaks'.2, hmissing]
  refine ⟨rfl, ?_, hdue.reachable, hdue.attested, ?_, ⟨now, rfl, ?_⟩⟩
  · simpa [Proxy.seenLive, hloses] using hdue.earning
  · simpa [Proxy.seenLive, hreset] using hdue.cursor
  · have hwindow : (0 : Int) ≤ minutes staleMinutes := by
      unfold minutes seconds
      omega
    exact hpast.trans (Int.le_add_of_nonneg_right hwindow)

theorem healthStaleMinutes_nonneg (db : Db) : 0 ≤ healthStaleMinutes db := by
  unfold healthStaleMinutes
  omega

theorem applyLive_settles (hk : Table.Keyed Proxy.id db.proxies) (howes : db.Owes i generation τ)
    (hr : r ∈ db.proxies) (hid : r.id = i) (hpast : τ + seconds 2 ≤ now)
    (h : applyLive db r result now wall = .ok db') : Settles i τ db db' := by
  have hdue : r.Outstanding (healthStaleMinutes db) τ := by
    obtain ⟨r', hr', hid', hdue, -, -⟩ := howes
    exact hk.eq hr hr' (hid.trans hid'.symm) ▸ hdue
  subst hid
  unfold applyLive at h
  dsimp only at h
  set o := observeLive r result (checkerSettings db).healthStaleMinutes now with ho
  obtain ⟨accrued, haccrued, h⟩ := ok_of_bind h
  obtain ⟨reset, hreset, h⟩ := ok_of_bind h
  have hsettles : Settles r.id τ db
      (reset.updateProxy r.id fun seen => seen.seenLive r result o (checkerSettings db) now) := by
    by_cases hbreaks : o.breaksCycle = true
    · rw [if_pos ⟨hbreaks, hdue.earning⟩] at haccrued
      rw [if_pos hbreaks] at hreset
      have hcovered := resetProbation_covered (howes.accrueProxyTime hpast haccrued) hreset
      have hsettings := accrueProxyTime_settings hk haccrued
      refine ⟨?_, .inl hcovered⟩
      rw [resetProbation_ok hreset]
      exact hsettings
    · rw [if_neg fun hb => hbreaks hb.1] at haccrued
      rw [if_neg hbreaks] at hreset
      obtain rfl := Except.ok.inj haccrued
      obtain rfl := Except.ok.inj hreset
      refine ⟨rfl, .inr ⟨_, Table.mem_update.mpr ⟨r, hr, if_pos rfl⟩, rfl, ?_⟩⟩
      exact hdue.seenLive (healthStaleMinutes_nonneg _) hpast ho (by simpa using hbreaks)
  split at h
  · exact hsettles.carries (reconcileExit_carries h)
  · exact Except.ok.inj h ▸ hsettles

theorem applyBlocked_settles (hk : Table.Keyed Proxy.id db.proxies) (howes : db.Owes i generation τ)
    (hid : r.id = i) (hearning : r.eligibility.Earning) (hpast : τ + seconds 2 ≤ now)
    (h : applyBlocked db r now = .ok db') : Settles i τ db db' := by
  subst hid
  unfold applyBlocked at h
  dsimp only at h
  rw [if_pos hearning] at h
  obtain ⟨accrued, haccrued, h⟩ := ok_of_bind h
  obtain ⟨reset, hreset, h⟩ := ok_of_bind h
  rw [← Except.ok.inj h]
  have hcovered := resetProbation_covered (howes.accrueProxyTime hpast haccrued) hreset
  have hsettings := accrueProxyTime_settings hk haccrued
  refine ⟨?_, .inl hcovered⟩
  rw [resetProbation_ok hreset]
  exact hsettings

theorem applyFailure_settles (hk : Table.Keyed Proxy.id db.proxies) (howes : db.Owes i generation τ)
    (hr : r ∈ db.proxies) (hid : r.id = i) (hdue : r.Outstanding (healthStaleMinutes db) τ)
    (hpast : τ + seconds 2 ≤ now) (h : applyFailure db r result now = .ok db') :
    Settles i τ db db' := by
  subst hid
  unfold applyFailure at h
  dsimp only at h
  obtain ⟨accrued, haccrued, h⟩ := ok_of_bind h
  by_cases hout : r.strikesOut = true
  · rw [if_pos ⟨hout, hdue.earning, hdue.up⟩] at haccrued
    rw [if_pos hout] at h
    have hcovered := howes.accrueProxyTime hpast haccrued
    have hsettings := accrueProxyTime_settings hk haccrued
    refine ⟨?_, .inl (@resetProbation_covered _ _ _ (accrued.updateProxy _ _) _ _ hcovered h)⟩
    rw [resetProbation_ok h]
    exact hsettings
  · rw [if_neg fun hb => hout hb.1] at haccrued
    rw [if_neg hout] at h
    obtain rfl := Except.ok.inj haccrued
    rw [← Except.ok.inj h]
    refine ⟨rfl, .inr ⟨_, Table.mem_update.mpr ⟨r, hr, if_pos rfl⟩, rfl, ?_⟩⟩
    refine ⟨?_, hdue.earning, hdue.reachable, hdue.attested, hdue.cursor, hdue.confirmed⟩
    have hup := hdue.up
    cases hs : r.status <;> simp_all [Proxy.seenFailing, Proxy.nextStatus, ProxyStatus.up]
    omega

theorem applyHealthResult_settles (hk : Table.Keyed Proxy.id db.proxies)
    (howes : db.Owes i generation τ)
    (hpast : τ + seconds 2 ≤ now) (h : applyHealthResult db i result now wall = .ok db') :
    Settles i τ db db' := by
  unfold applyHealthResult at h
  split at h
  · exact Except.ok.inj h ▸ (Carries.refl i db).settles howes
  rename_i row hrow
  obtain ⟨hr, hid, -, -⟩ := HealthResult.row?_mem hrow
  have hdue : row.Outstanding (healthStaleMinutes db) τ := by
    obtain ⟨r', hr', hid', hdue, -, -⟩ := howes
    exact hk.eq hr hr' (hid.trans hid'.symm) ▸ hdue
  split at h
  · exact applyLive_settles hk howes hr hid hpast h
  · rw [← Except.ok.inj h]
    refine Carries.settles (updateProxy_carries fun r _ _ _ => ?_) howes
    exact ⟨rfl, rfl, rfl, fun h => h, fun h => h, rfl, rfl, rfl⟩
  · rw [← Except.ok.inj h]
    refine Carries.settles (updateProxy_carries fun r _ _ _ => ?_) howes
    exact ⟨rfl, rfl, rfl, fun h => h, fun h => h, rfl, rfl, rfl⟩
  · exact applyBlocked_settles hk howes hid hdue.earning hpast h
  · exact applyFailure_settles hk howes hr hid hdue hpast h

theorem applyHealthResult_carries {j : Nat} (hj : i ≠ j)
    (h : applyHealthResult db j result now wall = .ok db') : Carries i db db' := by
  have hupdate {db₁ : Db} {f : Proxy → Proxy} : Carries i db₁ (db₁.updateProxy j f) :=
    updateProxy_carries fun _ _ _ h => absurd h hj
  unfold applyHealthResult at h
  split at h
  · exact Except.ok.inj h ▸ .refl i db
  rename_i row hrow
  obtain ⟨-, rfl, -, -⟩ := HealthResult.row?_mem hrow
  have haccrue {p : Prop} [Decidable p] {db₁ db₂ : Db}
      (h : (if p then accrueProxyTime db₁ row.id now else pure db₁) = .ok db₂) :
        Carries i db₁ db₂ := by
    split at h
    · exact accrueProxyTime_carries hj h
    · exact Except.ok.inj h ▸ .refl i db₁
  have hreset {p : Prop} [Decidable p] {db₁ db₂ : Db}
      (h : (if p then resetProbation db₁ row.id now else pure db₁) = .ok db₂) :
        Carries i db₁ db₂ := by
    split at h
    · exact resetProbation_carries hj h
    · exact Except.ok.inj h ▸ .refl i db₁
  split at h
  · unfold applyLive at h
    dsimp only at h
    obtain ⟨accrued, haccrued, h⟩ := ok_of_bind h
    obtain ⟨reset, hreset', h⟩ := ok_of_bind h
    have hprepared : Carries i db reset := (haccrue haccrued).trans (hreset hreset')
    split at h
    · exact (hprepared.trans hupdate).trans (reconcileExit_carries h)
    · exact Except.ok.inj h ▸ hprepared.trans hupdate
  · exact Except.ok.inj h ▸ hupdate
  · exact Except.ok.inj h ▸ hupdate
  · unfold applyBlocked at h
    dsimp only at h
    obtain ⟨accrued, haccrued, h⟩ := ok_of_bind h
    obtain ⟨reset, hreset', h⟩ := ok_of_bind h
    have hprepared : Carries i db reset :=
      (haccrue haccrued).trans (resetProbation_carries hj hreset')
    exact Except.ok.inj h ▸ hprepared.trans hupdate
  · unfold applyFailure at h
    dsimp only at h
    obtain ⟨accrued, haccrued, h⟩ := ok_of_bind h
    exact ((haccrue haccrued).trans hupdate).trans (hreset h)

end Health

section Qualification

variable {result : EarnappResult}

/-- The row that a result leaves to an earning row whose eligibility stays. -/
theorem Proxy.qualified_carried {r previous : Proxy} {refreshHours : Int}
    (hsame : r.eligibility = previous.eligibility)
    (hstays : previous.eligibility = result.eligibility previous)
    (hresets : result.resets previous = false) :
    r.Carried (r.qualified previous result refreshHours now) := by
  refine ⟨rfl, rfl, ?_, fun h => h, fun h => h, ?_, rfl, rfl⟩
  · simp [Proxy.qualified, hsame, ← hstays]
  · simp [Proxy.qualified, hresets]

/-- A result about another address takes the eligibility away. -/
theorem EarnappResult.resets_of_earning {previous : Proxy} (hearning : previous.eligibility.Earning)
    (hstays : previous.eligibility = result.eligibility previous) :
    result.resets previous = false := by
  have hchanged : egressChanged previous.exitIp result.authenticatedExitIp = false := by
    by_contra hchanged
    have hpending : result.eligibility previous = .pending := by
      simp only [Bool.not_eq_false] at hchanged
      simp [EarnappResult.eligibility, hchanged]
    rw [hstays, hpending] at hearning
    simp [Eligibility.Earning] at hearning
  simp [EarnappResult.resets, ← hstays, hchanged]

theorem applyEarnappResult_settles (hk : Table.Keyed Proxy.id db.proxies)
    (howes : db.Owes i generation τ) (hpast : τ + seconds 2 ≤ now)
    (h : applyEarnappResult db i result now wall = .ok db') : Settles i τ db db' := by
  unfold applyEarnappResult at h
  split at h
  · exact Except.ok.inj h ▸ (Carries.refl i db).settles howes
  rename_i previous hprevious
  obtain ⟨hr, hid, -, -⟩ := EarnappResult.row?_mem hprevious
  have hdue : previous.Outstanding (healthStaleMinutes db) τ := by
    obtain ⟨r', hr', hid', hdue, -, -⟩ := howes
    exact hk.eq hr hr' (hid.trans hid'.symm) ▸ hdue
  obtain ⟨reconciled, hsettled, h⟩ := ok_of_bind h
  obtain ⟨accrued, haccrued, hsettled⟩ := ok_of_bind hsettled
  obtain ⟨reset, hreset, hreconciled⟩ := ok_of_bind hsettled
  have hcarries : Carries i reset reconciled := by
    split at hreconciled
    · exact reconcileExit_carries hreconciled
    · exact Except.ok.inj hreconciled ▸ .refl i reset
  rw [← Except.ok.inj h]
  by_cases hstays : previous.eligibility = result.eligibility previous
  · have hresets := EarnappResult.resets_of_earning hdue.earning hstays
    rw [if_neg fun hb => hb.1 hstays] at haccrued
    rw [hresets, if_neg Bool.false_ne_true] at hreset
    obtain rfl := Except.ok.inj haccrued
    obtain rfl := Except.ok.inj hreset
    obtain ⟨r, hr', hcarried⟩ := hcarries.row previous hr hid
    have hrow : r.id = i := hcarried.id.trans hid
    refine ⟨hcarries.settings, .inr ⟨_, Table.mem_update.mpr ⟨r, hr', if_pos hrow⟩, hrow, ?_⟩⟩
    exact (hcarried.trans (Proxy.qualified_carried hcarried.eligibility hstays hresets)).due hdue
  · have hresets : result.resets previous = true := by
      simp [EarnappResult.resets, hstays]
    rw [if_pos ⟨hstays, hdue.earning⟩] at haccrued
    rw [if_pos hresets] at hreset
    have hcovered := resetProbation_covered (howes.accrueProxyTime hpast haccrued) hreset
    have hsettings : reset.settings = accrued.settings := by
      rw [resetProbation_ok hreset]
    refine ⟨?_, .inl (hcarries.covered τ hcovered)⟩
    exact (hcarries.settings.trans hsettings).trans (accrueProxyTime_settings hk haccrued)

theorem applyEarnappResult_carries {j : Nat} (hj : i ≠ j)
    (h : applyEarnappResult db j result now wall = .ok db') : Carries i db db' := by
  unfold applyEarnappResult at h
  split at h
  · exact Except.ok.inj h ▸ .refl i db
  obtain ⟨reconciled, hsettled, h⟩ := ok_of_bind h
  obtain ⟨accrued, haccrued, hsettled⟩ := ok_of_bind hsettled
  obtain ⟨reset, hreset, hreconciled⟩ := ok_of_bind hsettled
  have haccrue : Carries i db accrued := by
    split at haccrued
    · exact accrueProxyTime_carries hj haccrued
    · exact Except.ok.inj haccrued ▸ .refl i db
  have hrestart : Carries i accrued reset := by
    split at hreset
    · exact resetProbation_carries hj hreset
    · exact Except.ok.inj hreset ▸ .refl i accrued
  have hreconcile : Carries i reset reconciled := by
    split at hreconciled
    · exact reconcileExit_carries hreconciled
    · exact Except.ok.inj hreconciled ▸ .refl i reset
  rw [← Except.ok.inj h]
  exact ((haccrue.trans hrestart).trans hreconcile).trans
    (updateProxy_carries fun _ _ _ h => absurd h hj)

end Qualification

/-! ## A turn -/

/-- The group of the old address is settled without the row that leaves it. -/
theorem leaveGroup_carries {j : Nat} {previousExit : Option IpAddress} {excludeId : Option Nat}
    {grouped : Db}
    (hgrouped : (match previousExit with
      | some previousExit => canonicalizeExitGroup db previousExit false excludeId wall
      | none => pure db) = .ok grouped)
    (h : expirePendingCycle grouped j = .ok db') : Carries i db db' := by
  have hleft : Carries i db grouped := by
    split at hgrouped
    · exact canonicalizeExitGroup_carries hgrouped
    · exact Except.ok.inj hgrouped ▸ .refl i db
  exact hleft.trans (expirePendingCycle_carries h)

/-- An update that takes the row from where it stands is not one of row `i`. -/
theorem updateProxy_settles {j : Nat} {f : Proxy → Proxy} (h : Carries i db db')
    (howes : db.Owes i generation τ) (hk : Table.Keyed Proxy.id (db'.updateProxy j f).proxies)
    (hstands : (db'.updateProxy j f).Stands i generation) (hid : ∀ r, (f r).id = r.id)
    (hleaves : ∀ r : Proxy, r.credentialGeneration = generation → ¬ (f r).Stands generation) :
    Settles i τ db (db'.updateProxy j f) := by
  by_cases hj : i = j
  · obtain ⟨r, hr, rfl, -, hrow, -⟩ := howes
    obtain ⟨r', hr', hcarried⟩ := h.row r hr rfl
    obtain ⟨s, hs, hsid, hsrow, -⟩ := hstands
    have hupdated : f r' ∈ (db'.updateProxy j f).proxies :=
      Table.mem_update.mpr ⟨r', hr', if_pos (hcarried.id.trans hj)⟩
    obtain rfl := hk.eq hs hupdated (hsid.trans ((hid r').trans hcarried.id).symm)
    exact absurd hsrow (hleaves r' (hcarried.generation.trans hrow.credential))
  · exact (h.trans (updateProxy_carries fun _ _ _ h => absurd h hj)).settles howes

theorem replaceProxy_settles {j userId : Nat} {parsed : ParsedProxy}
    (howes : db.Owes i generation τ)
    (hk : Table.Keyed Proxy.id db'.proxies) (hstands : db'.Stands i generation)
    (h : replaceProxy db j userId parsed now wall = .ok db') : Settles i τ db db' := by
  unfold replaceProxy at h
  split at h
  · cases h
  split at h
  · cases h
  obtain ⟨grouped, hgrouped, h⟩ := ok_of_bind h
  obtain ⟨expired, hexpired, h⟩ := ok_of_bind h
  obtain rfl := Except.ok.inj h
  refine updateProxy_settles (leaveGroup_carries hgrouped hexpired) howes hk hstands
    (fun _ => rfl) ?_
  intro r hr hrow
  have hnext : r.credentialGeneration + 1 = generation := hrow.credential
  omega

theorem archiveProxy_settles {j userId : Nat} (howes : db.Owes i generation τ)
    (hk : Table.Keyed Proxy.id db'.proxies) (hstands : db'.Stands i generation)
    (h : archiveProxy db j userId now wall = .ok db') : Settles i τ db db' := by
  unfold archiveProxy at h
  split at h
  · cases h
  obtain ⟨grouped, hgrouped, h⟩ := ok_of_bind h
  obtain ⟨expired, hexpired, h⟩ := ok_of_bind h
  obtain rfl := Except.ok.inj h
  refine updateProxy_settles (leaveGroup_carries hgrouped hexpired) howes hk hstands
    (fun _ => rfl) ?_
  intro r _ hrow
  exact absurd hrow.kept (Option.some_ne_none now)

/-- The maintenance archives rows that are offline; the promotions before it leave a canonical row
that is up alone. -/
theorem archiveDueDeadProxies_carries {out : Db × Nat} {r : Proxy}
    (hk : Table.Keyed Proxy.id db.proxies) (hr : r ∈ db.proxies) (hup : r.status.up = true)
    (hcanonical : r.duplicateOf = none) (h : archiveDueDeadProxies db now = .ok out) :
    Carries r.id db out.1 := by
  unfold archiveDueDeadProxies at h
  obtain ⟨promoted, hpromoted, h⟩ := ok_of_bind h
  rw [← Except.ok.inj h]
  have hkept : Table.Keyed Proxy.id promoted.proxies ∧ r ∈ promoted.proxies ∧
      Carries r.id db promoted := by
    refine ok_of_foldlM
      (I := fun _ s => Table.Keyed Proxy.id s.proxies ∧ r ∈ s.proxies ∧ Carries r.id db s)
      ?_ _ db promoted ⟨hk, hr, .refl _ db⟩ hpromoted
    rintro candidate _ s s' ⟨hks, hrs, hcarries⟩ hstep
    let ev : Event := ⟨.promoteDuplicateIfDue candidate.id, now, now⟩
    have hkeyed := ((step_does hks (show ev.op.OnProxies from trivial)).of_ok hstep).keyed hks
    obtain ⟨out, hout, rfl⟩ := ok_of_map hstep
    obtain ⟨hstays, hturn⟩ := promoteDuplicateIfDue_carries hks hrs hup hcanonical hout
    exact ⟨hkeyed, hstays, hcarries.trans hturn⟩
  obtain ⟨hkp, hrp, hcarries⟩ := hkept
  refine hcarries.trans ⟨rfl, fun _ h => h, fun s hs hid => ⟨s, ?_, .refl s⟩⟩
  obtain rfl := hkp.eq hs hrp hid
  refine Table.mem_update.mpr ⟨s, hs, if_neg fun hdead => ?_⟩
  simp [hdead.2.1, ProxyStatus.up] at hup

/-- The operations that may credit row `i`: its results, and the accruals. -/
def Op.Accrues (i : Nat) : Op → Prop
  | .applyHealthResult j _ | .applyEarnappResult j _ | .accrueProxyTime j => i = j
  | .accrueEligibleTime => True
  | _ => False

instance Op.Accrues.decidable (i : Nat) (op : Op) : Decidable (op.Accrues i) := by
  cases op <;> unfold Op.Accrues <;> infer_instance

/-- An operation that succeeds and leaves row `i` where it stands has settled what the row was owed,
or left it due. -/
theorem step_settles {ev : Event} (hk : Table.Keyed Proxy.id db.proxies)
    (hk' : Table.Keyed Proxy.id db'.proxies) (howes : db.Owes i generation τ)
    (hpast : ev.op.Accrues i → τ + seconds 2 ≤ ev.now) (hstands : db'.Stands i generation)
    (h : step db ev = .ok db') : Settles i τ db db' := by
  obtain ⟨r, user, hr, rfl, hdue, hrow, huser, hpayable, haccruable⟩ := howes.accruable
  rcases step_ok_cases h with hop | ⟨userId, parsed, rfl⟩ | hsame
  · obtain ⟨op, now, wall⟩ := ev
    cases op with
    | replaceProxy j userId parsed => exact replaceProxy_settles howes hk' hstands h
    | archiveProxy j userId => exact archiveProxy_settles howes hk' hstands h
    | promoteDuplicateIfDue j =>
      obtain ⟨out, hout, rfl⟩ := ok_of_map h
      exact (promoteDuplicateIfDue_carries hk hr hdue.up hrow.canonical hout).2.settles howes
    | archiveDueDeadProxies =>
      obtain ⟨out, hout, rfl⟩ := ok_of_map h
      exact (archiveDueDeadProxies_carries hk hr hdue.up hrow.canonical hout).settles howes
    | reconcileExitIp j exitIp source =>
      have h : reconcileExitIp db j exitIp source wall = .ok db' := h
      unfold reconcileExitIp at h
      split at h
      · exact (reconcileExit_carries h).settles howes
      · exact Except.ok.inj h ▸ (Carries.refl r.id db).settles howes
    | applyHealthResult j result =>
      by_cases hj : r.id = j
      · subst hj
        exact applyHealthResult_settles hk howes (hpast rfl) h
      · exact (applyHealthResult_carries hj h).settles howes
    | applyEarnappResult j result =>
      by_cases hj : r.id = j
      · subst hj
        exact applyEarnappResult_settles hk howes (hpast rfl) h
      · exact (applyEarnappResult_carries hj h).settles howes
    | accrueEligibleTime =>
      have h : accrueEligibleTimeLocked db now none false = .ok db' := h
      by_cases honline : r.Accruable false
      · have hvisited : (r, user) ∈ accrualRows db none false :=
          mem_accrualRows_of hr honline (by simp) huser
        refine ⟨((accrueEligibleTime_does hk).of_ok h).moved.settings, .inl ?_⟩
        exact accrue_covers hvisited hpayable hdue (hpast trivial) h
      · refine (accrue_carries (fun p hp hid => honline ?_) h).settles howes
        obtain ⟨hp, ⟨haccruable, -⟩, -⟩ := mem_accrualRows hp
        exact hk.eq hp hr hid ▸ haccruable
    | accrueProxyTime j =>
      by_cases hj : r.id = j
      · subst hj
        exact ⟨accrueProxyTime_settings hk h, .inl (howes.accrueProxyTime (hpast rfl) h)⟩
      · exact (accrueProxyTime_carries hj h).settles howes
    | expirePendingCycle j => exact (expirePendingCycle_carries h).settles howes
    | _ => exact hop.elim
  · refine Carries.settles ⟨rfl, fun _ h => h, fun s hs _ => ⟨s, ?_, .refl s⟩⟩ howes
    exact List.mem_append_left _ hs
  · exact (Carries.of_others hsame.proxies hsame.ledger hsame.settings).settles howes

/-! ## Whole runs -/

/-- What is covered stays covered. -/
theorem Effect.covered {ev : Event} (h : Effect db ev db') (hcovered : db.Covered i τ) :
    db'.Covered i τ := by
  cases h with
  | proxies hphased =>
    obtain ⟨accrued, hvisits, φ, ids, rfl, -⟩ := hphased
    refine covered_relabel rfl (hvisits.keeps (I := fun s => s.Covered i τ) ?_ hcovered)
    intro j s s' _ hs hvisit
    cases hvisit with
    | skip => exact hs
    | @credit row user cursor until_ news ignored =>
      obtain ⟨p, hp, hunlock⟩ :=
        unlockCycle_eq_update s.ledger j (row.probationStartedAt.getD cursor) until_
      have hunlocked : Db.Covered { s with ledger := unlockCycle s.ledger j _ until_ } i τ :=
        covered_relabel hunlock hs
      obtain ⟨e, he, hcovers⟩ := hunlocked
      exact ⟨e, List.mem_append_left _ he, hcovers⟩
  | added => exact hcovered
  | others hsame =>
    obtain ⟨e, he, hcovers⟩ := hcovered
    exact ⟨e, hsame.ledger ▸ he, hcovers⟩

/-- A turn after `τ` that leaves the row where it stands. -/
theorem exec_settles {ev : Event} (hk : Table.Keyed Proxy.id db.proxies)
    (hk' : Table.Keyed Proxy.id (exec db ev).proxies)
    (hpast : ev.op.Accrues i → τ + seconds 2 ≤ ev.now) (hstands : (exec db ev).Stands i generation)
    (h : db.Covered i τ ∨ db.Owes i generation τ) :
    (exec db ev).Covered i τ ∨ (exec db ev).Owes i generation τ := by
  rcases h with hcovered | howes
  · exact .inl ((exec_effect hk ev).covered hcovered)
  cases hstep : step db ev with
  | error e =>
    rw [exec_of_error hstep]
    exact .inr howes
  | ok db' =>
    rw [exec_of_ok hstep] at hk' hstands ⊢
    exact (step_settles hk hk' howes hpast hstands hstep).owes hk' hstands

/-- **No confirmed time is lost while the row stands.** Let the row be owed the seconds from `τ` on,
and let no result of the row and no accrual fall into the two seconds after `τ`. In every state to
which the row stands, under the same credential, with no older claim on its address and with an
owner who may be paid, an entry covers the second or the row is still owed it; the next accrual of
the row then covers it. The settings stay as they are: to lower `health_stale_minutes` takes away
confirmed time. -/
theorem confirmed_time_settled {db₀ : Db} {h : List (Event × Db)} (hfresh : db₀.Fresh)
    (run : Runs db₀ h db) (howed : History.Held Event.now (fun s => s.Owes i generation τ) h τ)
    (hquiet : ∀ x ∈ h, τ < x.1.now → x.1.op.Accrues i → τ + seconds 2 ≤ x.1.now)
    (hstands : ∀ x ∈ h, τ < x.1.now → x.2.Stands i generation) :
    (db.Covered i τ ∨ db.Owes i generation τ) ∧
      ∀ now db', τ + seconds 2 ≤ now → accrueProxyTime db i now = .ok db' → db'.Covered i τ := by
  have hsettled : db.Covered i τ ∨ db.Owes i generation τ := by
    induction run with
    | nil => exact howed.elim
    | @snoc h s ev s' run hexec ih =>
      rcases howed with ⟨-, howes⟩ | ⟨hlt, howed⟩
      · exact .inr howes
      have hearlier := ih howed (fun x hx => hquiet x (List.mem_cons_of_mem _ hx))
        fun x hx => hstands x (List.mem_cons_of_mem _ hx)
      have hlater : Runs db₀ ((ev, s') :: h) s' := run.snoc hexec
      subst hexec
      exact exec_settles (Runs.wellFormed hfresh run).keyed (Runs.wellFormed hfresh hlater).keyed
        (hquiet _ List.mem_cons_self hlt) (hstands _ List.mem_cons_self hlt) hearlier
  refine ⟨hsettled, fun now db' hpast hok => ?_⟩
  rcases hsettled with hcovered | howes
  · have hk := (Runs.wellFormed hfresh run).keyed
    let ev : Event := ⟨.accrueProxyTime i, now, now⟩
    have hturn : exec db ev = db' := exec_of_ok hok
    exact hturn ▸ (exec_effect hk ev).covered hcovered
  · exact howes.accrueProxyTime hpast hok

instance (staleMinutes : Int) (τ : Timestamp) (r : Proxy) :
    Decidable (r.Outstanding staleMinutes τ) :=
  decidable_of_iff (r.status.up = true ∧ r.eligibility.Earning ∧ r.exitIp ≠ none ∧
      r.egressAttestationSource ≠ none ∧ (∃ c ∈ r.accrualCursorAt, c ≤ τ) ∧
      ∃ success ∈ r.lastSuccessAt, τ + seconds 2 ≤ success + minutes staleMinutes)
    ⟨fun ⟨h₁, h₂, h₃, h₄, h₅, h₆⟩ => ⟨h₁, h₂, h₃, h₄, h₅, h₆⟩,
      fun h => ⟨h.up, h.earning, h.reachable, h.attested, h.cursor, h.confirmed⟩⟩

instance (generation : Nat) (r : Proxy) : Decidable (r.Stands generation) :=
  decidable_of_iff
    (r.archivedAt = none ∧ r.duplicateOf = none ∧ r.credentialGeneration = generation)
    ⟨fun ⟨h₁, h₂, h₃⟩ => ⟨h₁, h₂, h₃⟩, fun h => ⟨h.kept, h.canonical, h.credential⟩⟩

instance (db : Db) (i generation : Nat) : Decidable (db.Stands i generation) :=
  inferInstanceAs (Decidable (∃ r ∈ db.proxies, _))

instance (db : Db) (i generation : Nat) (τ : Timestamp) : Decidable (db.Owes i generation τ) :=
  inferInstanceAs (Decidable (∃ r ∈ db.proxies, _))

instance (db : Db) (i : Nat) (τ : Timestamp) : Decidable (db.Covered i τ) :=
  inferInstanceAs (Decidable (∃ e ∈ db.ledger, _))

open Scenario in
/-- The proxy earns from minute 2 on, and strikes out at minute 80. -/
def struckOut : List Event :=
  [minute 0 (.addProxy 1 (endpoint "192.0.2.1") none),
    minute 1 (.applyHealthResult 1 (liveFrom "198.51.100.7")),
    minute 2 (.applyEarnappResult 1 (allowedFrom "198.51.100.7")),
    minute 70 (.applyHealthResult 1 { status := "dead" }),
    minute 75 (.applyHealthResult 1 { status := "dead" }),
    minute 80 (.applyHealthResult 1 { status := "dead" })]

open Scenario in
theorem confirmed_time_settled_struckOut :
    (Db.Covered (after oneUser struckOut) 1 (minutes 79) ∨
        Db.Owes (after oneUser struckOut) 1 1 (minutes 79)) ∧
      ∀ now db', minutes 79 + seconds 2 ≤ now →
        accrueProxyTime (after oneUser struckOut) 1 now = .ok db' → db'.Covered 1 (minutes 79) :=
  confirmed_time_settled oneUser_fresh (runs oneUser struckOut) (by decide +kernel)
    (by decide +kernel)
    (by decide +kernel)

open Scenario in
/-- A replacement restarts the cursor and credits nothing first: what was owed at minute 30 is lost.
-/
example :
    let lost := struckOut.take 3 ++ [minute 60 (.replaceProxy 1 1 (endpoint "192.0.2.2"))]
    Db.Owes (after oneUser (struckOut.take 3)) 1 1 (minutes 30) ∧
      ¬ Db.Covered (after oneUser lost) 1 (minutes 30) ∧
      ¬ Db.Owes (after oneUser lost) 1 1 (minutes 30) ∧
      ¬ Db.Owes (after oneUser lost) 1 2 (minutes 30) := by
  decide +kernel

end EarnProxy
