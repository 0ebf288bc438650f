import EarnProxy.Verifier

/-!
# A verification result stays with the payout it was computed from

A claim writes a fresh token into its payout, a submission takes the token away, and nothing else
touches the transaction while the token is there. So the payout that a result is applied to still
is the payout that the worker read, and no claim is applied twice.
-/

namespace EarnProxy

open Transaction

/-- What the verifier compares with the chain. -/
def Payout.transfer (p : Payout) : String × String × Nat × Nat :=
  (p.txHash, p.walletAddress, p.amountMicroUsd, p.netMicroUsd)

theorem Db.payout?_update {db db' : Db} {q : Payout → Prop} [DecidablePred q] {f : Payout → Payout}
    (h : db'.payouts = Table.update q f db.payouts) (hf : ∀ p, (f p).id = p.id) (i : Nat) :
    db'.payout? i = (db.payout? i).map fun p => if q p then f p else p := by
  unfold Db.payout?
  rw [h]
  exact Table.lookup_map fun p _ => by split <;> simp [hf]

/-! ## Hashes -/

/-- Stored hashes are lowered, and no two payouts have the same one. -/
structure Db.HashesApart (db : Db) : Prop where
  lowered : ∀ p ∈ db.payouts, Text.asciiLower p.txHash = p.txHash
  apart : ∀ p ∈ db.payouts, ∀ p' ∈ db.payouts, p.txHash = p'.txHash → p.txHash ≠ "" → p.id = p'.id

theorem normalizeTxHash_ok {text value : String} (h : normalizeTxHash text = .ok value) :
    Text.asciiLower value = value ∧ value ≠ "" := by
  simp only [normalizeTxHash] at h
  split at h
  · obtain rfl := Except.ok.inj h
    refine ⟨Text.asciiLower_lower _, fun hempty => ?_⟩
    simp_all [isTxHash]
  · cases h

theorem Db.HashesApart.of_same {db db' : Db} (h : db.HashesApart)
    (hrows : ∀ p' ∈ db'.payouts, p'.txHash = "" ∨
      ∃ p ∈ db.payouts, p.id = p'.id ∧ p.txHash = p'.txHash) : db'.HashesApart where
  lowered := by
    intro p' hp'
    rcases hrows p' hp' with hempty | ⟨p, hp, _, heq⟩
    · rw [hempty]
      rfl
    · rw [← heq]
      exact h.lowered p hp
  apart := by
    intro p₁' hp₁' p₂' hp₂' heq hne
    obtain ⟨p₁, hp₁, hid₁, hhash₁⟩ := (hrows p₁' hp₁').resolve_left hne
    obtain ⟨p₂, hp₂, hid₂, hhash₂⟩ := (hrows p₂' hp₂').resolve_left (heq ▸ hne)
    grind [h.apart p₁ hp₁ p₂ hp₂]

theorem PayoutEffect.hashes {db db' : Db} {ev : Event} (h : PayoutEffect db ev db')
    (hapart : db.HashesApart) : db'.HashesApart := by
  have hupdate : ∀ {payout : Payout} {f : Payout → Payout},
      db'.payouts = Table.update (fun p => p.id = payout.id) f db.payouts →
      (∀ p, (f p).id = p.id ∧ (f p).txHash = p.txHash) → db'.HashesApart := by
    intro payout f hsame hf
    refine hapart.of_same fun p' hp' => .inr ?_
    rw [hsame] at hp'
    obtain ⟨p, hp, rfl⟩ := Table.mem_update.mp hp'
    exact ⟨p, hp, by split <;> simp [hf]⟩
  cases h with
  | same hsame => exact hapart.of_same fun p' hp' => .inr ⟨p', hsame ▸ hp', rfl, rfl⟩
  | requested _ hadmitted _ hsame =>
    refine hapart.of_same fun p' hp' => ?_
    rw [hsame] at hp'
    rcases List.mem_append.mp hp' with hp' | hp'
    · exact .inr ⟨p', hp', rfl, rfl⟩
    · rw [List.mem_singleton.mp hp']
      exact .inl hadmitted.unsubmitted
  | approved _ _ hsame => exact hupdate hsame fun _ => ⟨rfl, rfl⟩
  | verified _ _ _ hsame => exact hupdate hsame fun _ => ⟨rfl, rfl⟩
  | @submitted payout txHash value hmem hop hstatus hsubmits hsame =>
    obtain ⟨hlowered, hne⟩ := normalizeTxHash_ok hsubmits.hash
    -- a row has the new hash, or it is another row with its old hash
    have hrows : ∀ p' ∈ db'.payouts, (p'.id = payout.id ∧ p'.txHash = value) ∨
        (p'.id ≠ payout.id ∧ p' ∈ db.payouts) := by
      intro p' hp'
      rw [hsame] at hp'
      obtain ⟨p, hp, rfl⟩ := Table.mem_update.mp hp'
      split
      · exact .inl ⟨‹_›, rfl⟩
      · exact .inr ⟨‹_›, hp⟩
    refine ⟨fun p' hp' => ?_, fun p₁ hp₁ p₂ hp₂ heq hne₁ => ?_⟩
    · rcases hrows p' hp' with ⟨_, hvalue⟩ | ⟨_, hp⟩
      · rw [hvalue]
        exact hlowered
      · exact hapart.lowered p' hp
    · have hunique : ∀ p ∈ db.payouts, p.txHash = value → p.id = payout.id :=
        fun p hp hvalue => hsubmits.unique p hp ((hapart.lowered p hp).trans hvalue)
      rcases hrows p₁ hp₁ with ⟨hid₁, hv₁⟩ | ⟨hid₁, hm₁⟩ <;>
        rcases hrows p₂ hp₂ with ⟨hid₂, hv₂⟩ | ⟨hid₂, hm₂⟩
      · exact hid₁.trans hid₂.symm
      · exact absurd (hunique p₂ hm₂ (heq.symm.trans hv₁)) hid₂
      · exact absurd (hunique p₁ hm₁ (heq.trans hv₂)) hid₁
      · exact hapart.apart p₁ hm₁ p₂ hm₂ heq hne₁

/-! ## Tokens -/

/-- The payouts as a table of claimed rows. -/
def VerifierState.board (s : VerifierState) :
    Fencing.Board Nat String (Option (String × String × Nat × Nat)) where
  issued := {t | t ∈ s.issued}
  holder i := (s.db.payout? i).bind Payout.verificationClaimToken
  content i := (s.db.payout? i).map Payout.transfer

/-- The row a worker has read. -/
def VerifierWorker.row? : VerifierWorker → Option Payout
  | .verifying row _ | .verified row _ _ => some row
  | _ => none

/-- The payout and the token that a worker acts for. -/
def VerifierWorker.claim? : VerifierWorker → Option (Nat × String)
  | .verifying row _ | .verified row _ _ => some (row.id, row.claimToken)
  | .failing payoutId claimToken => some (payoutId, claimToken)
  | _ => none

structure VerifierState.Sound (s : VerifierState) : Prop where
  wellFormed : s.db.WellFormed
  keyed : Table.Keyed Payout.id s.db.payouts
  reserved : "" ∈ s.issued
  held : ∀ p ∈ s.db.payouts, ∀ t ∈ p.verificationClaimToken, t ∈ s.issued
  bound : ∀ worker, ∀ row ∈ (s.workers worker).row?,
    s.board.Binds row.id row.claimToken (some row.transfer)
  hashes : s.db.HashesApart

/-- What an action does to the row `p'` of the payouts. -/
inductive TokenMove (s s' : VerifierState) (i : Nat) (p' : Payout) : Prop where
  | cleared (token : p'.verificationClaimToken = none)
  | fresh {t : String} (token : p'.verificationClaimToken = some t) (unused : t ∉ s.issued)
      (issued : t ∈ s'.issued)
  | kept {p : Payout} (found : s.db.payout? i = some p)
      (token : p'.verificationClaimToken = p.verificationClaimToken)
      (transfer : p'.transfer = p.transfer)

theorem VerifierState.board_step {s s' : VerifierState} (hs : s.Sound)
    (hissued : ∀ t ∈ s.issued, t ∈ s'.issued)
    (hmoves : ∀ i, ∀ p' ∈ s'.db.payout? i, TokenMove s s' i p') : s.board.Step s'.board where
  issued := hissued
  holds := by
    intro i t ht
    obtain ⟨p', hp', htoken⟩ := Option.bind_eq_some_iff.mp ht
    cases hmoves i p' hp' with
    | cleared hnone => simp [hnone] at htoken
    | fresh hsome hunused hnew =>
      obtain rfl := Option.some.inj (hsome.symm.trans htoken)
      exact ⟨hnew, fun hold => absurd hold hunused⟩
    | @kept p hfound hsame htransfer =>
      have hp : p.verificationClaimToken = some t := hsame ▸ htoken
      refine ⟨hissued t (hs.held p (Table.mem_of_lookup hfound) t hp), fun _ => ⟨?_, ?_⟩⟩
      · simp [board, hfound, hp]
      · show (s'.db.payout? i).map _ = (s.db.payout? i).map _
        rw [hp', hfound]
        simp [htransfer]

/-- The state after an action is sound, and no token came back. -/
structure VerifierState.Advances (s s' : VerifierState) : Prop where
  sound : s'.Sound
  board : s.board.Step s'.board

/-- An action that keeps the payouts apart and moves tokens by the rules keeps the state sound, if
the workers' rows stay bound. -/
theorem VerifierState.Sound.step {s s' : VerifierState} (hs : s.Sound)
    (hwf : s'.db.WellFormed) (hkeyed : Table.Keyed Payout.id s'.db.payouts)
    (hhashes : s'.db.HashesApart) (hissued : ∀ t ∈ s.issued, t ∈ s'.issued)
    (hmoves : ∀ i, ∀ p' ∈ s'.db.payout? i, TokenMove s s' i p')
    (hworkers : ∀ worker, ∀ row ∈ (s'.workers worker).row?, row ∈ (s.workers worker).row? ∨
      s.db.payout? row.id = some row ∧ s'.db = s.db) : s.Advances s' := by
  have hstep := board_step hs hissued hmoves
  have hheld : ∀ p ∈ s'.db.payouts, ∀ t ∈ p.verificationClaimToken, t ∈ s'.issued := by
    intro p hp t ht
    refine (hstep.holds p.id t ?_).1
    show (s'.db.payout? p.id).bind _ = some t
    rw [Db.payout?, hkeyed.lookup_eq hp]
    exact ht
  refine ⟨⟨hwf, hkeyed, hissued _ hs.reserved, hheld, fun worker row hrow => ?_, hhashes⟩, hstep⟩
  rcases hworkers worker row hrow with hold | ⟨hread, hdb⟩
  · exact (hs.bound worker row hold).step hstep
  · -- the row is what the payout is now
    have hread' : s'.db.payout? row.id = some row := hdb ▸ hread
    cases htoken : row.verificationClaimToken with
    | none =>
      refine ⟨?_, fun hheld => ?_⟩
      · rw [Payout.claimToken, htoken]
        exact hissued _ hs.reserved
      · simp [board, hread', htoken] at hheld
    | some t =>
      refine ⟨?_, fun _ => by simp [board, hread']⟩
      rw [Payout.claimToken, htoken]
      exact hheld row (Table.mem_of_lookup hread') t htoken

/-! ## The actions -/

theorem claimOne_some {db db' : Db} {now : Timestamp} {token : String} {payoutId : Nat}
    (h : claimOne db now token = some (db', payoutId)) :
    ∃ q : Payout → Prop, ∃ _ : DecidablePred q, db' = { db with
      payouts := Table.update q (fun p =>
        { p with verificationClaimedUntil := some (now + minutes claimMinutes)
                 verificationClaimToken := some token }) db.payouts } := by
  unfold claimOne at h
  obtain ⟨row, _, heq⟩ := Option.map_eq_some_iff.mp h
  obtain ⟨rfl, rfl⟩ := Prod.mk.inj heq
  exact ⟨_, _, rfl⟩

/-- Rewriting payouts touches no proxy and no entry. -/
theorem Db.WellFormed.of_payouts {db db' : Db} (h : db.WellFormed)
    (hproxies : db'.proxies = db.proxies) (hledger : db'.ledger = db.ledger) : db'.WellFormed :=
  ⟨hproxies ▸ h.keyed, hproxies ▸ h.sound, hproxies ▸ h.clocked, by
    rw [hledger, hproxies]
    exact h.owned⟩

/-- Statements that rewrite the claim columns of payouts, and only these. -/
theorem VerifierState.Sound.reclaim {s s' : VerifierState} (hs : s.Sound) {q : Payout → Prop}
    [DecidablePred q] {f : Payout → Payout}
    (hdb : s'.db = { s.db with payouts := Table.update q f s.db.payouts })
    (hf : ∀ p, (f p).id = p.id ∧ (f p).txHash = p.txHash)
    (hissued : ∀ t ∈ s.issued, t ∈ s'.issued)
    (htoken : ∀ p, (f p).verificationClaimToken = none ∨ ∃ t ∉ s.issued, t ∈ s'.issued ∧
      (f p).verificationClaimToken = some t)
    (hworkers : ∀ worker, ∀ row ∈ (s'.workers worker).row?, row ∈ (s.workers worker).row?) :
    s.Advances s' := by
  have hpayouts : s'.db.payouts = Table.update q f s.db.payouts := by rw [hdb]
  refine hs.step (hs.wellFormed.of_payouts (by rw [hdb]) (by rw [hdb])) ?_ ?_ hissued ?_
    fun worker row hrow => .inl (hworkers worker row hrow)
  · rw [hpayouts]
    exact hs.keyed.map fun p _ => by split <;> simp [hf]
  · refine hs.hashes.of_same fun p' hp' => .inr ?_
    rw [hpayouts] at hp'
    obtain ⟨p, hp, rfl⟩ := Table.mem_update.mp hp'
    exact ⟨p, hp, by split <;> simp [hf]⟩
  · intro i p' hp'
    rw [Option.mem_def, Db.payout?_update hpayouts (fun p => (hf p).1)] at hp'
    obtain ⟨p, hp, rfl⟩ := Option.map_eq_some_iff.mp hp'
    split
    · rcases htoken p with hnone | ⟨t, hunused, hnew, hsome⟩
      · exact .cleared hnone
      · exact .fresh hsome hunused hnew
    · exact .kept hp rfl rfl

/-- A call of a service that is not `apply_payout_verification`. -/
theorem VerifierState.Sound.service {s : VerifierState} (hs : s.Sound) {ev : Event}
    (hev : ev.op.verifies = false) : s.Advances { s with db := exec s.db ev } := by
  have heffect := exec_payouts hs.wellFormed.keyed hs.keyed ev
  refine hs.step ((exec_effect hs.wellFormed.keyed ev).wellFormed hs.wellFormed)
    (heffect.keyed hs.keyed) (heffect.hashes hs.hashes) (fun _ h => h) (fun i p' hp' => ?_)
    fun _ row hrow => .inl hrow
  have hp'' : (exec s.db ev).payout? i = some p' := hp'
  have hupdate : ∀ {payout : Payout} {f : Payout → Payout},
      (exec s.db ev).payouts = Table.update (fun p => p.id = payout.id) f s.db.payouts →
      (∀ p, (f p).id = p.id) → ∃ p, s.db.payout? i = some p ∧ (p' = f p ∨ p' = p) := by
    intro payout f hsame hf
    rw [Db.payout?_update hsame hf] at hp''
    obtain ⟨p, hp, rfl⟩ := Option.map_eq_some_iff.mp hp''
    exact ⟨p, hp, by split <;> simp⟩
  cases heffect with
  | same hsame =>
    rw [Db.payout?, hsame] at hp''
    exact .kept hp'' rfl rfl
  | @requested userId amount limit payout hop hadmitted _ hsame =>
    have hmem := Table.mem_of_lookup hp''
    rw [hsame] at hmem
    rcases List.mem_append.mp hmem with hmem | hmem
    · refine .kept ?_ rfl rfl
      rw [← Table.key_of_lookup hp'']
      exact hs.keyed.lookup_eq hmem
    · rw [List.mem_singleton.mp hmem]
      exact .cleared hadmitted.unclaimed
  | approved hmem hstatus hsame =>
    obtain ⟨p, hp, rfl | rfl⟩ := hupdate hsame fun _ => rfl
    · exact .kept hp rfl rfl
    · exact .kept hp rfl rfl
  | submitted hmem hop hstatus hsubmits hsame =>
    obtain ⟨p, hp, rfl | rfl⟩ := hupdate hsame fun _ => rfl
    · exact .cleared rfl
    · exact .kept hp rfl rfl
  | verified hmem hop =>
    rw [hop] at hev
    cases hev

@[simp] theorem VerifierState.setWorker_db (s : VerifierState) (worker : Nat)
    (at_ : VerifierWorker) : (s.setWorker worker at_).db = s.db := rfl

@[simp] theorem VerifierState.setWorker_issued (s : VerifierState) (worker : Nat)
    (at_ : VerifierWorker) : (s.setWorker worker at_).issued = s.issued := rfl

/-- A worker that moves on keeps its row or drops it; the others stand still. -/
theorem VerifierState.setWorker_row {s : VerifierState} {worker : Nat} {at_ : VerifierWorker}
    (hat : ∀ row ∈ at_.row?, row ∈ (s.workers worker).row?) (worker' : Nat) (row : Payout)
    (hrow : row ∈ ((s.setWorker worker at_).workers worker').row?) :
    row ∈ (s.workers worker').row? := by
  by_cases heq : worker' = worker
  · subst heq
    simp only [setWorker, Function.update_self] at hrow
    exact hat row hrow
  · simpa [setWorker, heq] using hrow

/-- A worker moves on, and nothing else happens. -/
theorem VerifierState.Sound.setWorker {s : VerifierState} (hs : s.Sound) {worker : Nat}
    {at_ : VerifierWorker} (hat : ∀ row ∈ at_.row?, row ∈ (s.workers worker).row?) :
    s.Advances (s.setWorker worker at_) := by
  refine hs.step hs.wellFormed hs.keyed hs.hashes (fun _ h => h)
    (fun i p' hp' => .kept hp' rfl rfl) fun worker' row hrow => ?_
  exact .inl (setWorker_row hat worker' row hrow)

/-- The end of an accepted application, as a rewriting of payouts. -/
theorem applyPayoutVerification_eq {db db' : Db} {payoutId : Nat} {result : VerificationResult}
    {claimToken : Option String} {now : Timestamp}
    (h : applyPayoutVerification db payoutId result claimToken now = .ok db') :
    db' = { db with
      payouts := Table.update (fun p => p.Awaits payoutId claimToken)
        (fun p => p.verified result now) db.payouts } := by
  obtain ⟨_, _, _, hdb⟩ := applyPayoutVerification_ok h
  exact hdb

/-- What an application does: it is accepted, or the worker fails and the database stays. -/
theorem VerifierState.next_apply {s s' : VerifierState} {worker : Nat}
    (h : s.next (.apply worker) = some s') :
    ∃ row result current, s.workers worker = .verified row result current ∧
      ((∃ db, applyPayoutVerification s.db row.id result (some row.claimToken) current = .ok db ∧
          s' = { s with db }.setWorker worker .idle) ∨
        ((∀ p ∈ s.db.payouts, ¬ p.Awaits row.id (some row.claimToken)) ∧
          s' = s.setWorker worker (.failing row.id row.claimToken))) := by
  simp only [VerifierState.next] at h
  split at h
  · rename_i row result current hworker
    refine ⟨row, result, current, hworker, ?_⟩
    cases happly : applyPayoutVerification s.db row.id result (some row.claimToken) current with
    | ok db =>
      rw [happly] at h
      exact .inl ⟨db, rfl, (Option.some.inj h).symm⟩
    | error e =>
      rw [happly] at h
      refine .inr ⟨fun p hp hawaits => ?_, (Option.some.inj h).symm⟩
      rw [applyPayoutVerification, if_pos ⟨p, hp, hawaits⟩] at happly
      cases happly
  · cases h

theorem VerifierState.next_claim {s s' : VerifierState} {worker : Nat} {current : Timestamp}
    {token : String} (h : s.next (.claim worker current token) = some s') :
    s' = s ∨ ∃ db payoutId, token ∉ s.issued ∧ claimOne s.db current token = some (db, payoutId) ∧
      s' = { s with db := db, issued := token :: s.issued }.setWorker worker
        (.claimed payoutId current) := by
  simp only [VerifierState.next] at h
  split at h
  · split at h
    · cases h
    · split at h
      · exact .inl (Option.some.inj h).symm
      · exact .inr ⟨_, _, ‹_›, ‹_›, (Option.some.inj h).symm⟩
  · cases h

theorem VerifierState.next_release {s s' : VerifierState} {worker : Nat}
    (h : s.next (.release worker) = some s') :
    ∃ payoutId claimToken, s.workers worker = .failing payoutId claimToken ∧
      s' = { s with db := releaseClaim s.db payoutId claimToken }.setWorker worker .idle := by
  simp only [VerifierState.next] at h
  split at h
  · exact ⟨_, _, ‹_›, (Option.some.inj h).symm⟩
  · cases h

theorem VerifierState.Sound.next {s s' : VerifierState} (hs : s.Sound) {a : VerifierAction}
    (h : s.next a = some s') : s.Advances s' := by
  cases a with
  | service ev =>
    simp only [VerifierState.next] at h
    split at h
    · cases h
    · rename_i hev
      rw [← Option.some.inj h]
      exact hs.service (by simpa using hev)
  | claim worker current token =>
    rcases VerifierState.next_claim h with rfl | ⟨db, payoutId, hunused, hclaim, rfl⟩
    · exact hs.step hs.wellFormed hs.keyed hs.hashes (fun _ h => h)
        (fun i p' hp' => .kept hp' rfl rfl) fun worker row hrow => .inl hrow
    · obtain ⟨q, _, hdb⟩ := claimOne_some hclaim
      refine hs.reclaim (q := q) hdb (fun _ => ⟨rfl, rfl⟩) (fun t ht => List.mem_cons_of_mem _ ht)
        (fun _ => .inr ⟨token, hunused, List.mem_cons_self, rfl⟩)
          (VerifierState.setWorker_row (by simp [VerifierWorker.row?]))
  | reread worker =>
    simp only [VerifierState.next] at h
    split at h
    · rename_i payoutId current hworker
      split at h
      · rw [← Option.some.inj h]
        exact hs.setWorker (by simp [VerifierWorker.row?])
      · rename_i row hrow
        obtain rfl : row.id = payoutId := Table.key_of_lookup hrow
        rw [← Option.some.inj h]
        refine hs.step hs.wellFormed hs.keyed hs.hashes (fun _ h => h)
          (fun i p' hp' => .kept hp' rfl rfl) fun worker' row' hrow' => ?_
        by_cases heq : worker' = worker
        · subst heq
          simp only [VerifierState.setWorker, Function.update_self] at hrow'
          obtain rfl := Option.some.inj hrow'
          exact .inr ⟨hrow, rfl⟩
        · exact .inl (by simpa [VerifierState.setWorker, heq] using hrow')
    · cases h
  | verify worker result =>
    simp only [VerifierState.next] at h
    split at h
    · rename_i row current result hworker
      rw [← Option.some.inj h]
      exact hs.setWorker fun row' hrow' => by rw [hworker]; exact hrow'
    · rw [← Option.some.inj h]
      exact hs.setWorker (by simp [VerifierWorker.row?])
    · cases h
  | apply worker =>
    obtain ⟨row, result, current, _, ⟨db, hdb, rfl⟩ | ⟨_, rfl⟩⟩ := VerifierState.next_apply h
    · have hdb' := applyPayoutVerification_eq hdb
      refine hs.reclaim hdb' (fun _ => ⟨rfl, rfl⟩)
        (fun _ h => h) (fun _ => .inl rfl) ?_
      exact VerifierState.setWorker_row (by simp [VerifierWorker.row?])
    · exact hs.setWorker (by simp [VerifierWorker.row?])
  | release worker =>
    obtain ⟨payoutId, claimToken, _, rfl⟩ := VerifierState.next_release h
    refine hs.reclaim rfl (fun _ => ⟨rfl, rfl⟩)
      (fun _ h => h) (fun _ => .inl rfl) ?_
    exact VerifierState.setWorker_row (by simp [VerifierWorker.row?])
  | crash worker =>
    rw [← Option.some.inj h]
    exact hs.setWorker (by simp [VerifierWorker.row?])

/-! ## Runs -/

/-- The action applies the result of the claim `t` of payout `i`, and the payout accepts it. -/
def VerifierAction.Applies (i : Nat) (t : String) (s : VerifierState) (a : VerifierAction) : Prop :=
  ∃ worker row result current, a = .apply worker ∧
    s.workers worker = .verified row result current ∧ row.id = i ∧ row.claimToken = t ∧
    ∃ p ∈ s.db.payouts, p.Awaits i (some t)

/-- No payout with this id has the token. -/
def VerifierState.Superseded (s : VerifierState) (i : Nat) (t : String) : Prop :=
  ∀ p ∈ s.db.payouts, p.id = i → p.verificationClaimToken ≠ some t

theorem VerifierState.Sound.superseded_iff {s : VerifierState} (hs : s.Sound) {i : Nat}
    {t : String} : s.Superseded i t ↔ s.board.holder i ≠ some t := by
  constructor
  · intro h hheld
    obtain ⟨p, hp, htoken⟩ := Option.bind_eq_some_iff.mp hheld
    exact h p (Table.mem_of_lookup hp) (Table.key_of_lookup hp) htoken
  · rintro h p hp rfl htoken
    refine h (Option.bind_eq_some_iff.mpr ⟨p, ?_, htoken⟩)
    exact hs.keyed.lookup_eq hp

theorem VerifierState.start_sound {db : Db} (hfresh : db.Fresh) :
    VerifierState.Sound { db := db } where
  wellFormed := hfresh.wellFormed
  keyed := by simp [Table.Keyed, hfresh.payouts]
  reserved := List.mem_singleton.mpr rfl
  held := by simp [hfresh.payouts]
  bound := by simp [VerifierWorker.row?]
  hashes := ⟨by simp [hfresh.payouts], by simp [hfresh.payouts]⟩

section Runs

variable {db₀ : Db} {h : List (VerifierAction × VerifierState)} {s s' : VerifierState}
  {a : VerifierAction}

theorem VerifierRuns.sound (hfresh : db₀.Fresh) (run : VerifierRuns { db := db₀ } h s) :
    s.Sound := by
  refine History.Run.always (VerifierState.start_sound hfresh) ?_ run
  exact fun s a s' hs hnext => (hs.next hnext).sound

/-- A claim whose result was applied has lost its payout for good. -/
theorem VerifierRuns.spent (hfresh : db₀.Fresh) (run : VerifierRuns { db := db₀ } h s) {i : Nat}
    {t : String}
    (hspent : History.Sometime (fun s a => a.Applies i t s) ({ db := db₀ } : VerifierState) h) :
    t ∈ s.issued ∧ s.Superseded i t := by
  have hlost : t ∈ s.board.issued ∧ s.board.holder i ≠ some t := by
    refine Fencing.Board.lost_for_good (C := fun s a => a.Applies i t s)
      (fun _ _ _ _ hrun hnext => ((VerifierRuns.sound hfresh hrun).next hnext).board) ?_ run hspent
    rintro h s a s' hrun hnext
      ⟨worker, row, result, current, rfl, hworker, rfl, rfl, p, hp, hawaits⟩
    have hs := VerifierRuns.sound hfresh hrun
    obtain ⟨hs', hboard⟩ := hs.next hnext
    have hissued : row.claimToken ∈ s.issued := (hs.bound worker row (by simp [hworker,
      VerifierWorker.row?])).issued
    refine ⟨hboard.issued hissued, hs'.superseded_iff.mp ?_⟩
    obtain ⟨row', result', current', hworker', ⟨db, hdb, rfl⟩ | ⟨hnone, _⟩⟩ :=
      VerifierState.next_apply hnext
    · rw [hworker] at hworker'
      cases hworker'
      rw [VerifierState.Superseded, VerifierState.setWorker_db, applyPayoutVerification_eq hdb]
      rintro q' hq' hid htoken
      obtain ⟨q, hq, rfl⟩ := Table.mem_update.mp hq'
      split at htoken
      · cases htoken
      · rename_i hother
        simp only [hother, if_false] at hid
        exact hother (hs.keyed.eq hp hq (hawaits.1.trans hid.symm) ▸ hawaits)
    · rw [hworker] at hworker'
      cases hworker'
      exact absurd hawaits (hnone p hp)
  exact ⟨hlost.1, (VerifierRuns.sound hfresh run).superseded_iff.mpr hlost.2⟩

/-- What an update of the payouts makes of one of them. -/
theorem Payout.of_update {payouts : List Payout} (hk : Table.Keyed Payout.id payouts)
    {q : Payout → Prop} [DecidablePred q] {f : Payout → Payout} {p p' : Payout} (hp : p ∈ payouts)
    (hp' : p' ∈ Table.update q f payouts) (hid : p'.id = p.id) (hf : ∀ p, (f p).id = p.id) :
    (q p ∧ p' = f p) ∨ p' = p := by
  obtain ⟨p₀, hp₀, rfl⟩ := Table.mem_update.mp hp'
  have hid₀ : p₀.id = p.id := by
    split at hid
    · exact (hf p₀).symm.trans hid
    · exact hid
  obtain rfl := hk.eq hp₀ hp hid₀
  split
  · exact .inl ⟨‹_›, rfl⟩
  · exact .inr rfl

section Verdict

variable {p p' : Payout}

/-- A service that does not apply a verification gives no verdict. -/
theorem VerifierState.Sound.service_gives_none (hs : s.Sound) {ev : Event}
    (hev : ∀ i result token, ev.op ≠ .applyPayoutVerification i result token)
    (hp : p ∈ s.db.payouts) (hp' : p' ∈ (exec s.db ev).payouts) (hid : p'.id = p.id)
    (hverdict : p'.status = .confirmed ∨ p'.status = .failed) : p'.status = p.status := by
  cases exec_payouts hs.wellFormed.keyed hs.keyed ev with
  | same heq => exact congrArg Payout.status (hs.keyed.eq (heq ▸ hp') hp hid)
  | requested _ hadmitted _ heq =>
    rw [heq] at hp'
    rcases List.mem_append.mp hp' with hmem | hmem
    · exact congrArg Payout.status (hs.keyed.eq hmem hp hid)
    · rw [List.mem_singleton.mp hmem, hadmitted.status] at hverdict
      simp at hverdict
  | approved _ _ heq =>
    rw [heq] at hp'
    rcases Payout.of_update hs.keyed hp hp' hid fun _ => rfl with ⟨_, rfl⟩ | rfl
    · simp at hverdict
    · rfl
  | submitted _ _ _ _ heq =>
    rw [heq] at hp'
    rcases Payout.of_update hs.keyed hp hp' hid fun _ => rfl with ⟨_, rfl⟩ | rfl
    · simp [Payout.submitted] at hverdict
    · rfl
  | verified _ hop => exact absurd hop (hev _ _ _)

/-- Until it applies its result, and after it has failed, a worker leaves every status as it is. -/
theorem VerifierState.Sound.worker_keeps_status (hs : s.Sound) (hnext : s.next a = some s')
    (hservice : ∀ ev, a ≠ .service ev) (happly : ∀ worker, a ≠ .apply worker)
    (hp : p ∈ s.db.payouts) (hp' : p' ∈ s'.db.payouts) (hid : p'.id = p.id) :
    p'.status = p.status := by
  have hsame : s'.db.payouts = s.db.payouts → p'.status = p.status := fun heq =>
    congrArg Payout.status (hs.keyed.eq (heq ▸ hp') hp hid)
  cases a with
  | service ev => exact absurd rfl (hservice ev)
  | apply worker => exact absurd rfl (happly worker)
  | claim worker current token =>
    rcases VerifierState.next_claim hnext with rfl | ⟨db, payoutId, _, hclaim, rfl⟩
    · exact hsame rfl
    · obtain ⟨q, _, rfl⟩ := claimOne_some hclaim
      rw [VerifierState.setWorker_db] at hp'
      rcases Payout.of_update hs.keyed hp hp' hid fun _ => rfl with ⟨_, rfl⟩ | rfl <;> rfl
  | reread worker =>
    refine hsame ?_
    simp only [VerifierState.next] at hnext
    split at hnext
    · split at hnext <;> rw [← Option.some.inj hnext] <;> rfl
    · cases hnext
  | verify worker result =>
    refine hsame ?_
    simp only [VerifierState.next] at hnext
    split at hnext
    · rw [← Option.some.inj hnext]
      rfl
    · rw [← Option.some.inj hnext]
      rfl
    · cases hnext
  | release worker =>
    obtain ⟨payoutId, claimToken, _, rfl⟩ := VerifierState.next_release hnext
    rw [VerifierState.setWorker_db, releaseClaim, Db.updatePayouts] at hp'
    rcases Payout.of_update hs.keyed hp hp' hid fun _ => rfl with ⟨_, rfl⟩ | rfl <;> rfl
  | crash worker =>
    rw [← Option.some.inj hnext] at hp'
    exact congrArg Payout.status (hs.keyed.eq hp' hp hid)

/-- The result that a worker applies was computed from the payout, with the transaction it has. -/
theorem VerifierState.Sound.apply_verdict (hs : s.Sound) {worker : Nat}
    (hnext : s.next (.apply worker) = some s') (hp : p ∈ s.db.payouts) (hp' : p' ∈ s'.db.payouts)
    (hid : p'.id = p.id) (hstatus : p'.status ≠ p.status) :
    ∃ row result current, s.workers worker = .verified row result current ∧ row.id = p.id ∧
      row.transfer = p.transfer ∧ p'.transfer = p.transfer ∧
      p'.status = result.status.persisted := by
  obtain ⟨row, result, current, hworker, ⟨db, hdb, rfl⟩ | ⟨_, rfl⟩⟩ :=
    VerifierState.next_apply hnext
  · have hpayouts := congrArg Db.payouts (applyPayoutVerification_eq hdb)
    rw [VerifierState.setWorker_db, hpayouts] at hp'
    rcases Payout.of_update hs.keyed hp hp' hid fun _ => rfl with ⟨hawaits, rfl⟩ | rfl
    · refine ⟨row, result, current, hworker, hawaits.1.symm, ?_, rfl, rfl⟩
      have hbound := hs.bound worker row (by simp [hworker, VerifierWorker.row?])
      have hfound : s.db.payout? row.id = some p := hawaits.1 ▸ hs.keyed.lookup_eq hp
      have hcontent := hbound.content (by simp [VerifierState.board, hfound, hawaits.2.2 _ rfl])
      simpa [VerifierState.board, hfound] using hcontent.symm
    · exact absurd rfl hstatus
  · exact absurd (congrArg Payout.status (hs.keyed.eq hp' hp hid)) hstatus

/-- A payout becomes confirmed or failed only when a worker applies a result that it computed from
this payout with the same transaction. -/
theorem VerifierState.Sound.verdict (hs : s.Sound) (hnext : s.next a = some s')
    (hp : p ∈ s.db.payouts) (hp' : p' ∈ s'.db.payouts) (hid : p'.id = p.id)
    (hstatus : p'.status ≠ p.status) (hverdict : p'.status = .confirmed ∨ p'.status = .failed) :
    ∃ worker row result current, a = .apply worker ∧
      s.workers worker = .verified row result current ∧ row.id = p.id ∧
      row.transfer = p.transfer ∧ p'.transfer = p.transfer ∧
      p'.status = result.status.persisted := by
  cases a with
  | service ev =>
    simp only [VerifierState.next] at hnext
    split at hnext
    · cases hnext
    · rename_i hev
      obtain rfl := Option.some.inj hnext
      refine absurd (hs.service_gives_none ?_ hp hp' hid hverdict) hstatus
      intro i result token hop
      rw [hop] at hev
      exact hev rfl
  | apply worker =>
    obtain ⟨row, result, current, hresult⟩ := hs.apply_verdict hnext hp hp' hid hstatus
    exact ⟨worker, row, result, current, rfl, hresult⟩
  | claim | reread | verify | release | crash =>
    exact absurd (hs.worker_keeps_status hnext (by simp) (by simp) hp hp' hid) hstatus

end Verdict

/-- A worker whose token its payout has lost changes nothing any more. -/
theorem VerifierState.superseded_unchanged {worker i : Nat} {t : String}
    (ha : a = .apply worker ∨ a = .release worker)
    (hclaim : (s.workers worker).claim? = some (i, t))
    (hlost : s.Superseded i t) (hnext : s.next a = some s') : s'.db = s.db := by
  rcases ha with rfl | rfl
  · obtain ⟨row, result, current, hworker, ⟨db, hdb, rfl⟩ | ⟨_, rfl⟩⟩ :=
      VerifierState.next_apply hnext
    · simp only [hworker, VerifierWorker.claim?, Option.some.injEq, Prod.mk.injEq] at hclaim
      obtain ⟨rfl, rfl⟩ := hclaim
      obtain ⟨p, hp, hawaits, _⟩ := applyPayoutVerification_ok hdb
      exact absurd (hawaits.2.2 _ rfl) (hlost p hp hawaits.1)
    · rfl
  · obtain ⟨payoutId, claimToken, hworker, rfl⟩ := VerifierState.next_release hnext
    simp only [hworker, VerifierWorker.claim?, Option.some.injEq, Prod.mk.injEq] at hclaim
    obtain ⟨rfl, rfl⟩ := hclaim
    have hsame : Table.update (fun p : Payout => p.id = payoutId ∧
        p.verificationClaimToken = some claimToken ∧ p.status = .verifying)
        (fun p => { p with verificationClaimedUntil := none, verificationClaimToken := none })
        s.db.payouts = s.db.payouts :=
      Table.update_eq_self fun p hp hmatch => hlost p hp hmatch.1 hmatch.2.1
    simp [releaseClaim, Db.updatePayouts, hsame]

/-- In every run of workers and services: a payout becomes confirmed or failed only by the
application of a result computed from it with the transaction it still has, a superseded token
changes nothing, no claim is applied twice, and no two payouts have one transaction hash. -/
theorem verification_bound (hfresh : db₀.Fresh) (run : VerifierRuns { db := db₀ } h s)
    (hnext : s.next a = some s') :
    (∀ p ∈ s.db.payouts, ∀ p' ∈ s'.db.payouts, p'.id = p.id → p'.status ≠ p.status →
      p'.status = .confirmed ∨ p'.status = .failed →
      ∃ worker row result current, a = .apply worker ∧
        s.workers worker = .verified row result current ∧ row.id = p.id ∧
        row.transfer = p.transfer ∧ p'.transfer = p.transfer ∧
        p'.status = result.status.persisted) ∧
    (∀ worker i t, a = .apply worker ∨ a = .release worker →
      (s.workers worker).claim? = some (i, t) → s.Superseded i t → s'.db = s.db) ∧
    (∀ i t, a.Applies i t s →
      ¬ History.Sometime (fun s a => a.Applies i t s) ({ db := db₀ } : VerifierState) h) ∧
    ∀ p ∈ s'.db.payouts, ∀ p' ∈ s'.db.payouts, p.txHash ≠ "" →
      Text.asciiLower p.txHash = Text.asciiLower p'.txHash → p = p' := by
  have hs := VerifierRuns.sound hfresh run
  have hs' := (hs.next hnext).sound
  refine ⟨fun p hp p' hp' => hs.verdict hnext hp hp', fun worker i t ha hclaim hlost => ?_, ?_, ?_⟩
  · exact VerifierState.superseded_unchanged ha hclaim hlost hnext
  · rintro i t ⟨worker, row, result, current, _, _, _, _, p, hp, hawaits⟩ hspent
    exact (VerifierRuns.spent hfresh run hspent).2 p hp hawaits.1 (hawaits.2.2 t rfl)
  · intro p hp p' hp' hne heq
    rw [hs'.hashes.lowered p hp, hs'.hashes.lowered p' hp'] at heq
    exact hs'.keyed.eq hp hp' (hs'.hashes.apart p hp p' hp' heq hne)

end Runs

/-! ## A run -/

open Scenario in
/-- The first worker claims the payout; the transaction is replaced, and a second worker claims it
before the first one reports. -/
def replacedWhileVerifying : List VerifierAction :=
  (funded ++ [minute 1740002 (.requestPayout 1 15000000 none), minute 1740003 (.approvePayout 1),
    minute 1740004 (.submitPayoutTransaction 1 (txHashOf 'a'))]).map .service ++
  [.claim 1 (minutes 1740005) "first", .reread 1,
    .service (minute 1740006 (.submitPayoutTransaction 1 (txHashOf 'b'))),
    .claim 2 (minutes 1740007) "second", .reread 2, .verify 1 (some { status := .failed }),
    .verify 2 (some { status := .confirmed }), .apply 1, .release 1]

/-- The states of a list of actions. -/
def VerifierState.history (db : Db) (actions : List VerifierAction) :
    List (VerifierAction × VerifierState) :=
  History.replay (fun s a => (s.next a).getD s) { db := db } actions

def VerifierState.after (db : Db) (actions : List VerifierAction) : VerifierState :=
  History.current { db := db } (VerifierState.history db actions)

open Scenario in
/-- The failure that the first worker found stays with the transaction that was replaced. -/
theorem verification_bound_replacedWhileVerifying :
    let s := VerifierState.after oneUser replacedWhileVerifying
    (s.db.payouts.map fun p => (p.status, p.txHash)) = [(.verifying, txHashOf 'b')] ∧
      ∃ s', s.next (.apply 2) = some s' ∧
        (s'.db.payouts.map fun p => (p.status, p.txHash)) = [(.confirmed, txHashOf 'b')] ∧
        ∀ p ∈ s.db.payouts, ∀ p' ∈ s'.db.payouts, p'.id = p.id → p'.status ≠ p.status →
          p'.status = .confirmed ∨ p'.status = .failed →
          ∃ worker row result current, VerifierAction.apply 2 = .apply worker ∧
            s.workers worker = .verified row result current ∧ row.id = p.id ∧
            row.transfer = p.transfer ∧ p'.transfer = p.transfer ∧
            p'.status = result.status.persisted := by
  intro s
  have hfacts :
      History.Throughout (fun s a => (s.next a).isSome) ({ db := oneUser } : VerifierState)
        (VerifierState.history oneUser replacedWhileVerifying) ∧
      (s.next (.apply 2)).isSome ∧
      (s.db.payouts.map fun p => (p.status, p.txHash)) = [(.verifying, txHashOf 'b')] ∧
      (((s.next (.apply 2)).getD s).db.payouts.map fun p => (p.status, p.txHash)) =
        [(.confirmed, txHashOf 'b')] := by decide +kernel
  obtain ⟨haccepts, hsome, hbefore, hafter⟩ := hfacts
  have hrun : VerifierRuns { db := oneUser }
      (VerifierState.history oneUser replacedWhileVerifying) s :=
    History.run_replay_accepted haccepts
  have hnext : s.next (.apply 2) = some ((s.next (.apply 2)).getD s) := by
    obtain ⟨s', hs'⟩ := Option.isSome_iff_exists.mp hsome
    simp [hs']
  refine ⟨hbefore, _, hnext, hafter, ?_⟩
  exact (verification_bound oneUser_fresh hrun hnext).1

end EarnProxy
