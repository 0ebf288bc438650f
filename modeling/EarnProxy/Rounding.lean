import Mathlib.Data.Rat.Floor
import Mathlib.Tactic.FieldSimp
import Mathlib.Tactic.Linarith
import EarnProxy.Intervals

/-!
# What rounding costs

An accrual pays whole seconds in whole micro-USD, rounded down. A row that is paid in pieces gets no
more than the whole span is worth, and each piece costs it less than a second and a micro-USD.
-/

namespace EarnProxy

open Transaction

/-- The cursor of row `i`. -/
def Db.cursor? (db : Db) (i : Nat) : Option Timestamp := (db.proxy? i).bind Proxy.accrualCursorAt

/-- What an entry is worth to its row; an expired one is worth nothing any more. -/
structure Payment where
  startedAt : Timestamp
  endedAt : Timestamp
  microUsd : Nat
  live : Bool
  deriving DecidableEq, Repr

def LedgerEntry.payment (e : LedgerEntry) : Payment :=
  { startedAt := e.startedAt, endedAt := e.endedAt, microUsd := e.microUsd
    live := decide (e.bucket ≠ .expired) }

/-- What is recorded for row `i`, the oldest first. -/
def Db.payments (db : Db) (i : Nat) : List Payment :=
  (db.ledger.filter fun e => e.proxyId = i).map LedgerEntry.payment

/-- The micro-USD that are recorded for row `i`. -/
def Db.recorded (db : Db) (i : Nat) : Nat :=
  ((db.payments i).map fun payment => payment.microUsd).sum

/-- The entry that `_add_ledger_entry` records for an interval. -/
def paymentOf (monthlyRate : Nat) (span : Timestamp × Timestamp) : List Payment :=
  let duration := wholeSeconds (span.2 - span.1)
  if duration = 0 then []
  else [{ startedAt := span.1, endedAt := span.2
          microUsd := monthlyRate * duration / (monthHours * 3600), live := true }]

/-- The pieces in which an accrual credits `[cursor, until_)`: a span that crosses the end of the
probation is cut there. -/
def piecesOf (row : Proxy) (cursor until_ : Timestamp) : List (Timestamp × Timestamp) :=
  let unlockAt := row.probationStartedAt.getD cursor + hours probationHours
  if until_ = cursor then []
  else if cursor < unlockAt ∧ unlockAt ≤ until_ then [(cursor, unlockAt), (unlockAt, until_)]
  else [(cursor, until_)]

/-! ## What one call records -/

/-- Entries that become available stay what they are. -/
theorem payments_of_update {ledger : List LedgerEntry} {p : LedgerEntry → Prop} [DecidablePred p]
    (hp : ∀ e, p e → e.bucket = .pending) (i : Nat) :
    ((Table.update p (fun e => { e with bucket := .available }) ledger).filter fun e =>
      e.proxyId = i).map LedgerEntry.payment =
        (ledger.filter fun e => e.proxyId = i).map LedgerEntry.payment := by
  unfold Table.update
  rw [List.filter_map, List.map_map]
  have hid : (fun e : LedgerEntry => decide (e.proxyId = i)) ∘ (fun e : LedgerEntry =>
      if p e then { e with bucket := .available } else e) = fun e => decide (e.proxyId = i) := by
    funext e
    rw [Function.comp]
    split <;> rfl
  rw [hid]
  refine List.map_congr_left fun e _ => ?_
  rw [Function.comp]
  split
  · next he => simp [LedgerEntry.payment, hp e he]
  · rfl

theorem payments_moveEntries {db db' : Db} {p : LedgerEntry → Prop} [DecidablePred p]
    (hp : ∀ e, p e → e.bucket = .pending) (h : db.moveEntries p .available = .ok db') (i : Nat) :
    db'.payments i = db.payments i ∧ db'.proxies = db.proxies := by
  rw [Db.moveEntries_ok h]
  exact ⟨payments_of_update hp i, rfl⟩

theorem payments_addLedgerEntry_other {db : Db} {userId proxyId monthlyRate : Nat}
    {startedAt endedAt createdAt : Timestamp} {bucket : Bucket} {i : Nat} (hi : proxyId ≠ i) :
    (addLedgerEntry db userId proxyId startedAt endedAt monthlyRate bucket createdAt).payments i =
      db.payments i := by
  unfold addLedgerEntry Db.insertEntry Db.payments
  dsimp only
  split
  · rfl
  · split
    · rfl
    · simp [hi]

theorem proxies_addLedgerEntry (db : Db) (userId proxyId : Nat) (startedAt endedAt : Timestamp)
    (monthlyRate : Nat) (bucket : Bucket) (createdAt : Timestamp) :
    (addLedgerEntry db userId proxyId startedAt endedAt monthlyRate bucket createdAt).proxies =
      db.proxies := by
  unfold addLedgerEntry Db.insertEntry
  dsimp only
  split
  · rfl
  · split <;> rfl

/-- No entry is in the way of one that starts behind them all. -/
theorem payments_addLedgerEntry {db : Db} {userId proxyId monthlyRate : Nat}
    {startedAt endedAt createdAt : Timestamp} {bucket : Bucket} (hbucket : bucket ≠ .expired)
    (hbehind : ∀ payment ∈ db.payments proxyId, payment.endedAt ≤ startedAt) :
    (addLedgerEntry db userId proxyId startedAt endedAt monthlyRate bucket createdAt).payments
        proxyId = db.payments proxyId ++ paymentOf monthlyRate (startedAt, endedAt) := by
  unfold addLedgerEntry paymentOf
  dsimp only
  split
  · rw [List.append_nil]
  · next hduration =>
    have hlt : startedAt < endedAt := Int.lt_of_sub_pos (wholeSeconds_pos hduration)
    unfold Db.insertEntry
    rw [if_neg]
    · simp [Db.payments, LedgerEntry.payment, hbucket]
    · intro hmem
      obtain ⟨e, he, hkey⟩ := List.mem_map.mp hmem
      simp only [LedgerEntry.key, Prod.mk.injEq] at hkey
      have hpayment : e.payment ∈ db.payments proxyId := by
        refine List.mem_map.mpr ⟨e, List.mem_filter.mpr ⟨he, ?_⟩, rfl⟩
        rw [decide_eq_true_eq]
        exact hkey.1
      have hend : e.endedAt ≤ startedAt := hbehind _ hpayment
      rw [hkey.2.2.1] at hend
      exact absurd hlt (not_lt.mpr hend)

theorem behind_append {payments : List Payment} {a b : Timestamp}
    (h : ∀ payment ∈ payments, payment.endedAt ≤ a) (hab : a ≤ b) (monthlyRate : Nat) :
    ∀ payment ∈ payments ++ paymentOf monthlyRate (a, b), payment.endedAt ≤ b := by
  intro payment hpayment
  rcases List.mem_append.mp hpayment with hpayment | hpayment
  · exact (h payment hpayment).trans hab
  · unfold paymentOf at hpayment
    dsimp only at hpayment
    split at hpayment
    · cases hpayment
    · rw [List.mem_singleton.mp hpayment]

theorem cursor?_setCursor_other {db : Db} {i j : Nat} (hj : j ≠ i) (at_ : Timestamp) :
    (setCursor db j at_).cursor? i = db.cursor? i := by
  have hproxy : (setCursor db j at_).proxy? i = (db.proxy? i).map fun r =>
      if r.id = j then { r with accrualCursorAt := some at_ } else r :=
    Table.lookup_map fun r _ => by split <;> rfl
  unfold Db.cursor?
  rw [hproxy]
  cases hlookup : db.proxy? i with
  | none => rfl
  | some r =>
    have hid : r.id ≠ j := fun h => hj (h.symm.trans (Table.key_of_lookup hlookup))
    simp [hid]

theorem cursor?_setCursor {db : Db} {i : Nat} {cursor : Timestamp} (h : db.cursor? i = some cursor)
    (at_ : Timestamp) : (setCursor db i at_).cursor? i = some at_ := by
  have hproxy : (setCursor db i at_).proxy? i = (db.proxy? i).map fun r =>
      if r.id = i then { r with accrualCursorAt := some at_ } else r :=
    Table.lookup_map fun r _ => by split <;> rfl
  obtain ⟨r, hlookup, -⟩ := Option.bind_eq_some_iff.mp h
  have hid : r.id = i := Table.key_of_lookup hlookup
  unfold Db.cursor?
  rw [hproxy, hlookup]
  simp [hid]

/-- Nothing that concerns row `i` is different. -/
structure Db.SameFor (i : Nat) (db db' : Db) : Prop where
  cursor : db'.cursor? i = db.cursor? i
  payments : db'.payments i = db.payments i

theorem Db.SameFor.refl (i : Nat) (db : Db) : Db.SameFor i db db := ⟨rfl, rfl⟩

theorem Db.SameFor.trans {i : Nat} {db db' db'' : Db} (h : Db.SameFor i db db')
    (h' : Db.SameFor i db' db'') : Db.SameFor i db db'' :=
  ⟨h'.cursor.trans h.cursor, h'.payments.trans h.payments⟩

theorem sameFor_of_proxies {i : Nat} {db db' : Db} (hproxies : db'.proxies = db.proxies)
    (hpayments : db'.payments i = db.payments i) : Db.SameFor i db db' := by
  refine ⟨?_, hpayments⟩
  unfold Db.cursor? Db.proxy?
  rw [hproxies]

theorem creditRow_other {db db' : Db} {row : Proxy} {cursor until_ probation current : Timestamp}
    {monthlyRate i : Nat} (hi : row.id ≠ i)
    (h : creditRow db row cursor until_ probation current monthlyRate = .ok db') :
    Db.SameFor i db db' := by
  have hadd : ∀ (s : Db) (a b : Timestamp) (bucket : Bucket), Db.SameFor i s
      (addLedgerEntry s row.userId row.id a b monthlyRate bucket current) := fun s a b bucket =>
    sameFor_of_proxies (proxies_addLedgerEntry ..) (payments_addLedgerEntry_other hi)
  unfold creditRow at h
  dsimp only at h
  split at h
  · obtain ⟨moved, hmoved, h⟩ := ok_of_bind h
    obtain ⟨hpayments, hproxies⟩ := payments_moveEntries (fun _ h => h.2.1) hmoved i
    have hsame := sameFor_of_proxies hproxies hpayments
    split at h
    · obtain rfl := Except.ok.inj h
      exact hsame.trans ((hadd _ _ _ _).trans (hadd _ _ _ _))
    · obtain rfl := Except.ok.inj h
      exact hsame.trans (hadd _ _ _ _)
  · obtain rfl := Except.ok.inj h
    exact hadd _ _ _ _

theorem sameFor_setCursor {i j : Nat} (hj : j ≠ i) (db : Db) (at_ : Timestamp) :
    Db.SameFor i db (setCursor db j at_) := ⟨cursor?_setCursor_other hj at_, rfl⟩

theorem accrueRow_other {current : Timestamp} {staleMinutes : Int} {db db' : Db} {row : Proxy}
    {user : User} {i : Nat} (hi : row.id ≠ i)
    (h : accrueRow current staleMinutes db row user = .ok db') : Db.SameFor i db db' := by
  unfold accrueRow at h
  dsimp only at h
  split at h
  · exact Except.ok.inj h ▸ .refl i db
  split at h
  · exact Except.ok.inj h ▸ .refl i db
  split at h
  · exact Except.ok.inj h ▸ sameFor_setCursor hi _ _
  split at h
  · exact Except.ok.inj h ▸ .refl i db
  split at h
  · exact Except.ok.inj h ▸ .refl i db
  obtain ⟨credited, hcredited, h⟩ := ok_of_bind h
  obtain rfl := Except.ok.inj h
  exact (creditRow_other hi hcredited).trans (sameFor_setCursor hi _ _)

/-- What an accrual makes of row `i`, whose cursor it found at `cursor`: nothing, or it pays the
pieces of the confirmed span, up to the new cursor. -/
inductive Db.RowPaid (current : Timestamp) (staleMinutes : Int) (i monthlyRate : Nat) (row : Proxy)
    (cursor : Timestamp) (db db' : Db) : Prop where
  | nothing (same : Db.SameFor i db db')
  | span {until_ : Timestamp} (forward : cursor < until_)
      (confirmed : ∃ success ∈ row.lastSuccessAt,
        until_ = min current (success + minutes staleMinutes))
      (moved : db'.cursor? i = some until_)
      (payments : db'.payments i =
        db.payments i ++ (piecesOf row cursor until_).flatMap (paymentOf monthlyRate))

theorem creditRow_paid {db db' : Db} {row : Proxy} {cursor until_ current : Timestamp}
    {monthlyRate : Nat} (hforward : cursor < until_)
    (hbehind : ∀ payment ∈ db.payments row.id, payment.endedAt ≤ cursor)
    (h : creditRow db row cursor until_ (row.probationStartedAt.getD cursor) current monthlyRate =
      .ok db') :
    db'.proxies = db.proxies ∧ db'.payments row.id =
      db.payments row.id ++ (piecesOf row cursor until_).flatMap (paymentOf monthlyRate) := by
  unfold creditRow at h
  unfold piecesOf
  dsimp only at h ⊢
  generalize row.probationStartedAt.getD cursor = probation at h ⊢
  rw [if_neg hforward.ne']
  by_cases hreach : probation + hours probationHours ≤ until_
  · rw [if_pos hreach] at h
    obtain ⟨moved, hmoved, h⟩ := ok_of_bind h
    obtain ⟨hpayments, hproxies⟩ := payments_moveEntries (fun _ h => h.2.1) hmoved row.id
    rw [← hpayments] at hbehind
    by_cases hcross : cursor < probation + hours probationHours
    · rw [if_pos hcross] at h
      obtain rfl := Except.ok.inj h
      rw [if_pos ⟨hcross, hreach⟩, proxies_addLedgerEntry, proxies_addLedgerEntry,
        payments_addLedgerEntry (by decide), payments_addLedgerEntry (by decide) hbehind, hpayments]
      · simp [hproxies]
      · rw [payments_addLedgerEntry (by decide) hbehind]
        exact behind_append hbehind hcross.le monthlyRate
    · rw [if_neg hcross] at h
      obtain rfl := Except.ok.inj h
      have hwhole : ¬ (cursor < probation + hours probationHours ∧
          probation + hours probationHours ≤ until_) := fun hboth => hcross hboth.1
      rw [if_neg hwhole, proxies_addLedgerEntry, payments_addLedgerEntry (by decide) hbehind,
        hpayments]
      simp [hproxies]
  · rw [if_neg hreach] at h
    obtain rfl := Except.ok.inj h
    have hwhole : ¬ (cursor < probation + hours probationHours ∧
        probation + hours probationHours ≤ until_) := fun hboth => hreach hboth.2
    rw [if_neg hwhole, proxies_addLedgerEntry, payments_addLedgerEntry (by split <;> simp) hbehind]
    simp

/-- One iteration of the loop, for its row. -/
theorem accrueRow_paid {current : Timestamp} {staleMinutes : Int} {db db' : Db} {row : Proxy}
    {user : User} {cursor : Timestamp} (hpayable : user.Payable)
    (hrow : row.accrualCursorAt = some cursor) (hcursor : db.cursor? row.id = some cursor)
    (hbehind : ∀ payment ∈ db.payments row.id, payment.endedAt ≤ cursor)
    (h : accrueRow current staleMinutes db row user = .ok db') :
    Db.RowPaid current staleMinutes row.id row.monthlyRate row cursor db db' := by
  unfold accrueRow at h
  rw [hrow] at h
  dsimp only [Option.getD_some] at h
  split at h
  · exact Except.ok.inj h ▸ .nothing (.refl _ db)
  next success hsuccess =>
  split at h
  · exact Except.ok.inj h ▸ .nothing (.refl _ db)
  next hforward =>
  split at h
  · exact Except.ok.inj h ▸ .nothing (.refl _ db)
  split at h
  · exact Except.ok.inj h ▸ .nothing (.refl _ db)
  obtain ⟨credited, hcredited, h⟩ := ok_of_bind h
  obtain rfl := Except.ok.inj h
  obtain ⟨hproxies, hpayments⟩ := creditRow_paid (not_le.mp hforward) hbehind hcredited
  have hcursor' : credited.cursor? row.id = some cursor := by
    unfold Db.cursor? Db.proxy? at hcursor ⊢
    rw [hproxies]
    exact hcursor
  exact .span (not_le.mp hforward) ⟨success, hsuccess, rfl⟩ (cursor?_setCursor hcursor' _) hpayments

theorem accrueRows_other {current : Timestamp} {staleMinutes : Int} {i : Nat}
    {rows : List (Proxy × User)} (hrows : ∀ p ∈ rows, p.1.id ≠ i) {db db' : Db}
    (h : rows.foldlM (fun acc row => accrueRow current staleMinutes acc row.1 row.2) db = .ok db') :
    Db.SameFor i db db' := by
  have hsame : (∀ p ∈ ([] : List (Proxy × User)), p.1.id ≠ i) ∧ Db.SameFor i db db' := by
    refine ok_of_foldlM (I := fun rest s => (∀ p ∈ rest, p.1.id ≠ i) ∧ Db.SameFor i db s) ?_ rows db
      db' ⟨hrows, .refl i db⟩ h
    rintro p rest s s' ⟨hne, hsame⟩ hstep
    exact ⟨fun q hq => hne q (List.mem_cons_of_mem p hq),
      hsame.trans (accrueRow_other (hne p List.mem_cons_self) hstep)⟩
  exact hsame.2

theorem Db.RowPaid.after {current : Timestamp} {staleMinutes : Int} {i monthlyRate : Nat}
    {row : Proxy} {cursor : Timestamp} {db s s' db' : Db} (hbefore : Db.SameFor i db s)
    (h : Db.RowPaid current staleMinutes i monthlyRate row cursor s s')
    (hafter : Db.SameFor i s' db') :
    Db.RowPaid current staleMinutes i monthlyRate row cursor db db' := by
  cases h with
  | nothing hsame => exact .nothing (hbefore.trans (hsame.trans hafter))
  | span hforward hconfirmed hmoved hpayments =>
    refine .span hforward hconfirmed (hafter.cursor.trans hmoved) ?_
    rw [hafter.payments, hpayments, hbefore.payments]

/-- A call, for one of the rows whose owner may be paid. -/
theorem accrueEligibleTimeLocked_paid {db db' : Db} {row : Proxy} {cursor now : Timestamp}
    {proxyId : Option Nat} {includeSuspect : Bool} (hk : Table.Keyed Proxy.id db.proxies)
    (hmem : row ∈ db.proxies) (hrow : row.accrualCursorAt = some cursor)
    (hpayable : ∀ user ∈ db.user? row.userId, user.Payable)
    (hbehind : ∀ payment ∈ db.payments row.id, payment.endedAt ≤ cursor)
    (h : accrueEligibleTimeLocked db now proxyId includeSuspect = .ok db') :
    Db.RowPaid now (healthStaleMinutes db) row.id row.monthlyRate row cursor db db' := by
  unfold accrueEligibleTimeLocked at h
  have hdistinct := accrualRows_distinct hk proxyId includeSuspect
  have hselected : ∀ p ∈ accrualRows db proxyId includeSuspect, p.1.id = row.id →
      p.1 = row ∧ p.2 ∈ db.user? row.userId := by
    rintro ⟨r, user⟩ hp hid
    obtain ⟨hr, -, howner⟩ := mem_accrualRows hp
    obtain rfl : r = row := hk.eq hr hmem hid
    exact ⟨rfl, howner⟩
  by_cases hvisited : ∃ p ∈ accrualRows db proxyId includeSuspect, p.1.id = row.id
  · obtain ⟨⟨r, user⟩, hp, hid⟩ := hvisited
    obtain ⟨rfl, howner⟩ := hselected _ hp hid
    -- the rows before and after it are other rows
    obtain ⟨before, rest, hrows⟩ := List.append_of_mem hp
    rw [hrows] at h hdistinct
    rw [Table.Keyed, List.map_append] at hdistinct
    have hcounts := List.nodup_append.mp hdistinct
    have hbefore : ∀ p ∈ before, p.1.id ≠ r.id := fun p hp hid =>
      hcounts.2.2 _ (List.mem_map_of_mem hp) _ List.mem_cons_self hid
    have hrest : ∀ p ∈ rest, p.1.id ≠ r.id := fun p hp hid =>
      (List.nodup_cons.mp hcounts.2.1).1 (List.mem_map.mpr ⟨p, hp, hid⟩)
    rw [List.foldlM_append] at h
    obtain ⟨s, hs, h⟩ := ok_of_bind h
    rw [List.foldlM_cons] at h
    obtain ⟨s', hs', h⟩ := ok_of_bind h
    have hsame := accrueRows_other hbefore hs
    have hcursor : s.cursor? r.id = some cursor := by
      rw [hsame.cursor, Db.cursor?, Db.proxy?, hk.lookup_eq hmem]
      exact hrow
    have hpaid := accrueRow_paid (hpayable user howner) hrow hcursor
      (hsame.payments ▸ hbehind) hs'
    exact .after hsame hpaid (accrueRows_other hrest h)
  · exact .nothing (accrueRows_other (fun p hp hid => hvisited ⟨p, hp, hid⟩) h)

/-! ## What a piece loses -/

/-- What is recorded for a piece. -/
def amountOf (monthlyRate : Nat) (span : Timestamp × Timestamp) : Nat :=
  ((paymentOf monthlyRate span).map fun payment => payment.microUsd).sum

theorem amountOf_eq (monthlyRate : Nat) (a b : Timestamp) :
    amountOf monthlyRate (a, b) = monthlyRate * wholeSeconds (b - a) / 2592000 := by
  unfold amountOf paymentOf
  dsimp only
  split
  · next hduration => rw [hduration]; simp
  · simp [monthHours]

theorem wholeSeconds_bounds {delta : ℤ} (h : 0 ≤ delta) :
    (wholeSeconds delta : ℤ) * 1000000 ≤ delta ∧
      delta ≤ (wholeSeconds delta : ℤ) * 1000000 + 1000000 := by
  unfold wholeSeconds
  omega

/-- A piece is paid no more than it is worth, and less by under a second and a micro-USD. The worth
is counted in parts of a micro-USD, of which there are as many as a month has microseconds. -/
theorem amountOf_bounds (monthlyRate : Nat) {a b : Timestamp} (hab : a ≤ b) :
    (amountOf monthlyRate (a, b) : ℤ) * 2592000000000 ≤ monthlyRate * (b - a) ∧
      monthlyRate * (b - a) + 1 ≤ (amountOf monthlyRate (a, b) : ℤ) * 2592000000000 +
        (2592000000000 + monthlyRate * 1000000) := by
  have hseconds := wholeSeconds_bounds (Int.sub_nonneg_of_le hab)
  have hlow : amountOf monthlyRate (a, b) * 2592000 ≤ monthlyRate * wholeSeconds (b - a) := by
    rw [amountOf_eq]
    exact Nat.div_mul_le_self _ _
  have hhigh : monthlyRate * wholeSeconds (b - a) + 1 ≤
      amountOf monthlyRate (a, b) * 2592000 + 2592000 := by
    rw [amountOf_eq]
    omega
  generalize wholeSeconds (b - a) = seconds at *
  generalize amountOf monthlyRate (a, b) = amount at *
  have hworth : (monthlyRate : ℤ) * ((seconds : ℤ) * 1000000) ≤ monthlyRate * (b - a) :=
    mul_le_mul_of_nonneg_left hseconds.1 (Int.natCast_nonneg _)
  have hworth' : (monthlyRate : ℤ) * (b - a) ≤ monthlyRate * ((seconds : ℤ) * 1000000 + 1000000) :=
    mul_le_mul_of_nonneg_left hseconds.2 (Int.natCast_nonneg _)
  zify at hlow hhigh
  constructor <;> linarith

/-- The pieces of a span. -/
theorem piecesOf_bounds (monthlyRate : Nat) (row : Proxy) {cursor until_ : Timestamp}
    (hforward : cursor < until_) :
    let paid := (((piecesOf row cursor until_).map (amountOf monthlyRate)).sum : ℤ)
    let count := ((piecesOf row cursor until_).length : ℤ)
    paid * 2592000000000 ≤ monthlyRate * (until_ - cursor) ∧
      monthlyRate * (until_ - cursor) + count ≤
        paid * 2592000000000 + count * (2592000000000 + monthlyRate * 1000000) := by
  unfold piecesOf
  dsimp only
  rw [if_neg hforward.ne']
  split
  · next hcross =>
    obtain ⟨hlow, hhigh⟩ := amountOf_bounds monthlyRate hcross.1.le
    obtain ⟨hlow', hhigh'⟩ := amountOf_bounds monthlyRate hcross.2
    simp only [List.map_cons, List.map_nil, List.sum_cons, List.sum_nil, List.length_cons,
      List.length_nil]
    push_cast
    constructor <;> linarith
  · obtain ⟨hlow, hhigh⟩ := amountOf_bounds monthlyRate hforward.le
    simp only [List.map_cons, List.map_nil, List.sum_cons, List.sum_nil, List.length_cons,
      List.length_nil]
    push_cast
    constructor <;> linarith

/-! ## Any sequence of calls -/

/-- Calls of `accrue_eligible_time` and `accrue_proxy_time` lead from `db` to the other state, and
pay row `i` in so many pieces; whenever it is found, it has this rate and an owner who may be paid.
Between two calls anything may happen that leaves the cursor and the entries of the row alone. -/
inductive Accrues (i monthlyRate : Nat) (db : Db) : Nat → Db → Prop
  | start : Accrues i monthlyRate db 0 db
  | between {n : Nat} {s s' : Db} (earlier : Accrues i monthlyRate db n s)
      (same : Db.SameFor i s s') : Accrues i monthlyRate db n s'
  | call {n : Nat} {s s' : Db} {row : Proxy} {cursor until_ now : Timestamp}
      {proxyId : Option Nat} {includeSuspect : Bool} (earlier : Accrues i monthlyRate db n s)
      (keyed : Table.Keyed Proxy.id s.proxies) (mem : row ∈ s.proxies) (own : row.id = i)
      (rate : row.monthlyRate = monthlyRate) (payable : ∀ user ∈ s.user? row.userId, user.Payable)
      (found : s.cursor? i = some cursor)
      (ok : accrueEligibleTimeLocked s now proxyId includeSuspect = .ok s')
      (moved : s'.cursor? i = some until_) :
      Accrues i monthlyRate db (n + (piecesOf row cursor until_).length) s'

/-- The books of row `i` after `n` pieces, the last of which ended at `cursor`. -/
structure Accounted (i monthlyRate : Nat) (db : Db) (start : Timestamp) (n : Nat) (s : Db)
    (cursor : Timestamp) (paid : Nat) : Prop where
  position : s.cursor? i = some cursor
  recorded : s.recorded i = db.recorded i + paid
  behind : ∀ payment ∈ s.payments i, payment.endedAt ≤ cursor
  low : (paid : ℤ) * 2592000000000 ≤ monthlyRate * (cursor - start)
  high : monthlyRate * (cursor - start) + n ≤
    (paid : ℤ) * 2592000000000 + n * (2592000000000 + monthlyRate * 1000000)
  idle : n = 0 → cursor = start ∧ paid = 0

theorem sum_flatMap_paymentOf (monthlyRate : Nat) (spans : List (Timestamp × Timestamp)) :
    ((spans.flatMap (paymentOf monthlyRate)).map fun payment => payment.microUsd).sum =
      (spans.map (amountOf monthlyRate)).sum := by
  induction spans with
  | nil => rfl
  | cons span spans ih =>
    rw [List.flatMap_cons, List.map_append, List.sum_append, ih, List.map_cons, List.sum_cons]
    rfl

theorem behind_piecesOf {payments : List Payment} {cursor until_ : Timestamp}
    (h : ∀ payment ∈ payments, payment.endedAt ≤ cursor) (hforward : cursor < until_) (row : Proxy)
    (monthlyRate : Nat) :
    ∀ payment ∈ payments ++ (piecesOf row cursor until_).flatMap (paymentOf monthlyRate),
      payment.endedAt ≤ until_ := by
  unfold piecesOf
  dsimp only
  rw [if_neg hforward.ne']
  split
  · next hcross =>
    rw [List.flatMap_cons, List.flatMap_cons, List.flatMap_nil, List.append_nil,
      ← List.append_assoc]
    exact behind_append (behind_append h hcross.1.le monthlyRate) hcross.2 monthlyRate
  · rw [List.flatMap_cons, List.flatMap_nil, List.append_nil]
    exact behind_append h hforward.le monthlyRate

theorem Accounted.call {i monthlyRate n paid : Nat} {db s s' : Db}
    {start cursor until_ now : Timestamp} {staleMinutes : Int} {row : Proxy}
    (h : Accounted i monthlyRate db start n s cursor paid)
    (hpaid : Db.RowPaid now staleMinutes i monthlyRate row cursor s s')
    (hmoved : s'.cursor? i = some until_) :
    ∃ paid', Accounted i monthlyRate db start (n + (piecesOf row cursor until_).length) s' until_
      paid' := by
  cases hpaid with
  | nothing hsame =>
    obtain rfl : cursor = until_ := Option.some.inj (h.position.symm.trans (hsame.cursor ▸ hmoved))
    have hnone : piecesOf row cursor cursor = [] := if_pos rfl
    rw [hnone, List.length_nil, Nat.add_zero]
    refine ⟨paid, hmoved, ?_, hsame.payments ▸ h.behind, h.low, h.high, h.idle⟩
    rw [← h.recorded, Db.recorded, hsame.payments, Db.recorded]
  | @span until_' hforward _ hmoved' hpayments =>
    obtain rfl : until_' = until_ := Option.some.inj (hmoved'.symm.trans hmoved)
    obtain ⟨hlow, hhigh⟩ := piecesOf_bounds monthlyRate row hforward
    refine ⟨paid + ((piecesOf row cursor until_').map (amountOf monthlyRate)).sum, hmoved, ?_, ?_,
      ?_, ?_, ?_⟩
    · rw [Db.recorded, hpayments, List.map_append, List.sum_append, sum_flatMap_paymentOf,
        ← Nat.add_assoc, ← h.recorded, Db.recorded]
    · rw [hpayments]
      exact behind_piecesOf h.behind hforward row monthlyRate
    · have hlow' := h.low
      push_cast at hlow ⊢
      linarith
    · have hhigh' := h.high
      push_cast at hhigh ⊢
      linarith
    · intro hnone
      have hlength : 0 < (piecesOf row cursor until_').length := by
        unfold piecesOf
        dsimp only
        rw [if_neg hforward.ne']
        split <;> simp
      omega

/-- A visit moves the cursor of its row forward. -/
theorem Visit.forward {now : Timestamp} {i : Nat} {db db' : Db}
    (hk : Table.Keyed Proxy.id db.proxies) (h : Visit now i db db') :
    ∃ cursor until_, db.cursor? i = some cursor ∧ db'.cursor? i = some until_ ∧
      cursor < until_ := by
  have hfound : ∀ {row : Proxy} {user : User} {cursor until_ : Timestamp}, row.id = i →
      Span now db row user cursor until_ → db.cursor? i = some cursor := by
    intro row user cursor until_ hi span
    rw [← hi, Db.cursor?, Db.proxy?, hk.lookup_eq span.mem]
    exact span.start
  cases h with
  | skip hi span unpaid =>
    have hcursor := hfound hi span
    exact ⟨_, _, hcursor, cursor?_setCursor hcursor _, span.nonempty⟩
  | credit hi span payable credits hignored =>
    have hcursor := hfound hi span
    exact ⟨_, _, hcursor, cursor?_setCursor hcursor _, span.nonempty⟩

theorem Visit.keyed {now : Timestamp} {i : Nat} {db db' : Db} (h : Visit now i db db')
    (hk : Table.Keyed Proxy.id db.proxies) : Table.Keyed Proxy.id db'.proxies :=
  (h.moved (P := (· = i)) rfl).keyed hk

section Runs

variable {db₀ db : Db} {h : List (Event × Db)}

end Runs

open Scenario in
/-- A proxy is live and allowed, and nothing is accrued yet. -/
def oweAnHour : List Event :=
  [minute 0 (.addProxy 1 (endpoint "192.0.2.1") none),
    minute 1 (.applyHealthResult 1 (liveFrom "198.51.100.7")),
    minute 2 (.applyEarnappResult 1 (allowedFrom "198.51.100.7")),
    minute 60 (.applyHealthResult 1 (liveFrom "198.51.100.7"))]

end EarnProxy
