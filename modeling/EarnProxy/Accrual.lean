import Mathlib.Tactic.Common
import EarnProxy.Earnings
import EarnProxy.Library.Transaction

/-!
# What an accrual does

A call of `accrueEligibleTimeLocked` is a sequence of visits, each to one row. A visit moves the
cursor of its row over a span of confirmed time; when the owner may be paid it credits the span,
and once the span reaches the end of the probation cycle it unlocks the entries of that cycle.
Nothing else changes. Every later argument about accrual starts from `Visit`.
-/

namespace EarnProxy

open Transaction

/-- A move of ledger entries can violate the unique key. -/
def Db.Clash (db : Db) : Prop :=
  ∃ (p : LedgerEntry → Prop) (_ : DecidablePred p) (bucket : Bucket),
    ¬ ((Table.update p (fun e => { e with bucket := bucket }) db.ledger).map LedgerEntry.key).Nodup

/-- A violated unique key is explained by a clash; the other errors need no explanation. -/
def Db.Raises (db : Db) (error : DbError) : Prop := error = .ledgerUnique → db.Clash

theorem Db.moveEntries_error {db : Db} {p : LedgerEntry → Prop} [DecidablePred p]
    {bucket : Bucket} {error : DbError} (h : db.moveEntries p bucket = .error error) :
    db.Raises error := by
  simp only [Db.moveEntries] at h
  split at h
  · cases h
  · exact fun _ => ⟨p, inferInstance, bucket, ‹_›⟩

theorem Db.moveEntries_ok {db db' : Db} {p : LedgerEntry → Prop} [DecidablePred p]
    {bucket : Bucket} (h : db.moveEntries p bucket = .ok db') :
    db' = { db with
      ledger := Table.update p (fun e => { e with bucket := bucket }) db.ledger } := by
  simp only [Db.moveEntries] at h
  split at h
  · exact (Except.ok.inj h).symm
  · cases h

/-- The rate at which an accrual credits the row. -/
def Proxy.monthlyRate (r : Proxy) : Nat := monthlyRateFor r.eligibility r.countryCode

/-- The amount of the entry is what the monthly rate comes to over its interval. -/
def LedgerEntry.PaidAt (e : LedgerEntry) (monthlyRate : Nat) : Prop :=
  e.microUsd = monthlyRate * wholeSeconds (e.endedAt - e.startedAt) / (monthHours * 3600)

instance (e : LedgerEntry) (monthlyRate : Nat) : Decidable (e.PaidAt monthlyRate) :=
  inferInstanceAs (Decidable (_ = _))

/-- New entries of one bucket that lie inside `[from_, until_)` and do not overlap. -/
structure Credits (row : Proxy) (from_ until_ : Timestamp) (bucket : Bucket)
    (news : List LedgerEntry) : Prop where
  own : ∀ e ∈ news, e.proxyId = row.id ∧ e.userId = row.userId ∧ e.bucket = bucket
  within : ∀ e ∈ news, from_ ≤ e.startedAt ∧ e.startedAt < e.endedAt ∧ e.endedAt ≤ until_
  apart : news.Pairwise fun e e' => e.endedAt ≤ e'.startedAt
  paid : ∀ e ∈ news, e.PaidAt row.monthlyRate

theorem Credits.nil {row : Proxy} {from_ until_ : Timestamp} {bucket : Bucket} :
    Credits row from_ until_ bucket [] :=
  ⟨by simp, by simp, .nil, by simp⟩

theorem Credits.append {row : Proxy} {a b c : Timestamp} {bucket : Bucket}
    {news news' : List LedgerEntry} (h : Credits row a b bucket news)
    (h' : Credits row b c bucket news') (hab : a ≤ b) (hbc : b ≤ c) :
    Credits row a c bucket (news ++ news') where
  own := fun e he => (List.mem_append.mp he).elim (h.own e) (h'.own e)
  within := by
    intro e he
    rcases List.mem_append.mp he with he | he
    · obtain ⟨h₁, h₂, h₃⟩ := h.within e he
      exact ⟨h₁, h₂, h₃.trans hbc⟩
    · obtain ⟨h₁, h₂, h₃⟩ := h'.within e he
      exact ⟨hab.trans h₁, h₂, h₃⟩
  apart := by
    refine List.pairwise_append.mpr ⟨h.apart, h'.apart, fun e he e' he' => ?_⟩
    exact (h.within e he).2.2.trans (h'.within e' he').1
  paid := fun e he => (List.mem_append.mp he).elim (h.paid e) (h'.paid e)

/-- `db'` is `db` with new entries for the span; an insert is ignored only when the ledger already
holds an entry of the row that starts in the span. -/
def Adds (row : Proxy) (from_ until_ : Timestamp) (bucket : Bucket) (db db' : Db) : Prop :=
  ∃ news ignored, db' = { db with ledger := db.ledger ++ news, insertsIgnored := ignored } ∧
    Credits row from_ until_ bucket news ∧
    (ignored = db.insertsIgnored ∨ ∃ e ∈ db.ledger, e.proxyId = row.id ∧ from_ ≤ e.startedAt)

theorem Adds.trans {row : Proxy} {a b c : Timestamp} {bucket : Bucket} {db db' db'' : Db}
    (h : Adds row a b bucket db db') (h' : Adds row b c bucket db' db'') (hab : a ≤ b)
    (hbc : b ≤ c) : Adds row a c bucket db db'' := by
  obtain ⟨news, ignored, rfl, hnews, hignored⟩ := h
  obtain ⟨news', ignored', rfl, hnews', hignored'⟩ := h'
  refine ⟨news ++ news', ignored', by simp, hnews.append hnews' hab hbc, ?_⟩
  rcases hignored' with hignored' | ⟨e, he, hrow, hstart⟩
  · rcases hignored with hignored | h
    · exact .inl (hignored'.trans hignored)
    · exact .inr h
  · rcases List.mem_append.mp he with he | he
    · exact .inr ⟨e, he, hrow, hab.trans hstart⟩
    · obtain ⟨_, hlt, hle⟩ := hnews.within e he
      exact absurd (lt_of_lt_of_le hlt hle) (not_lt.mpr hstart)

theorem addLedgerEntry_adds (db : Db) (row : Proxy) (startedAt endedAt : Timestamp)
    (bucket : Bucket) (createdAt : Timestamp) :
    Adds row startedAt endedAt bucket db
      (addLedgerEntry db row.userId row.id startedAt endedAt row.monthlyRate bucket createdAt) := by
  unfold addLedgerEntry
  by_cases hduration : wholeSeconds (endedAt - startedAt) = 0
  · exact ⟨[], db.insertsIgnored, by simp [hduration], .nil, .inl rfl⟩
  · have hlt := wholeSeconds_pos hduration
    simp only [hduration, if_false, Db.insertEntry]
    split
    · rename_i hkey
      obtain ⟨e, he, hkey⟩ := List.mem_map.mp hkey
      simp only [LedgerEntry.key, Prod.mk.injEq] at hkey
      exact ⟨[], db.insertsIgnored + 1, by simp, .nil, .inr ⟨e, he, hkey.1, hkey.2.1.ge⟩⟩
    · refine ⟨[_], db.insertsIgnored, rfl, ⟨by simp, ?_, by simp, by simp [LedgerEntry.PaidAt]⟩,
        .inl rfl⟩
      intro e he
      rw [List.mem_singleton] at he
      subst he
      exact ⟨le_rfl, Int.lt_of_sub_pos hlt, le_rfl⟩

/-- The bucket of the entries a visit adds. -/
def cycleBucket (probation until_ : Timestamp) : Bucket :=
  if probation + hours probationHours ≤ until_ then .available else .pending

/-- The ledger after the unlock of a probation cycle, if the span reaches its end. -/
def unlockCycle (ledger : List LedgerEntry) (proxyId : Nat) (probation until_ : Timestamp) :
    List LedgerEntry :=
  if probation + hours probationHours ≤ until_ then
    Table.update (fun e => e.proxyId = proxyId ∧ e.bucket = .pending ∧ probation ≤ e.startedAt)
      (fun e => { e with bucket := .available }) ledger
  else ledger

/-- An entry after an unlock was there before, and only a pending entry of the cycle moved. -/
theorem mem_unlockCycle {ledger : List LedgerEntry} {proxyId : Nat} {probation until_ : Timestamp}
    {e' : LedgerEntry} (h : e' ∈ unlockCycle ledger proxyId probation until_) :
    e' ∈ ledger ∨ (probation + hours probationHours ≤ until_ ∧ ∃ e ∈ ledger,
      e.proxyId = proxyId ∧ e.bucket = .pending ∧ probation ≤ e.startedAt ∧
      e' = { e with bucket := .available }) := by
  unfold unlockCycle at h
  split at h
  · obtain ⟨e, he, heq⟩ := Table.mem_update.mp h
    split at heq
    · rename_i hreach hmoved
      exact .inr ⟨hreach, e, he, hmoved.1, hmoved.2.1, hmoved.2.2, heq.symm⟩
    · exact .inl (heq ▸ he)
  · exact .inl h

theorem unlockCycle_eq_update (ledger : List LedgerEntry) (i : Nat) (probation until_ : Timestamp) :
    ∃ (p : LedgerEntry → Prop) (_ : DecidablePred p), unlockCycle ledger i probation until_ =
      Table.update p (fun e => { e with bucket := .available }) ledger := by
  unfold unlockCycle
  split
  · exact ⟨_, _, rfl⟩
  · exact ⟨fun _ => False, inferInstance, (Table.update_eq_self (by simp)).symm⟩

/-- The bucket column says nothing about the interval. -/
theorem forall_mem_relabel {p : LedgerEntry → Prop} [DecidablePred p] {bucket : Bucket}
    {ledger : List LedgerEntry} {Q : Nat → Timestamp → Timestamp → Prop}
    (h : ∀ e ∈ ledger, Q e.proxyId e.startedAt e.endedAt) :
    ∀ e ∈ Table.update p (fun e => { e with bucket := bucket }) ledger,
      Q e.proxyId e.startedAt e.endedAt := by
  intro e' he'
  obtain ⟨e, he, rfl⟩ := Table.mem_update.mp he'
  split <;> exact h e he

/-- The span `[cursor, until_)` of confirmed time that a visit to `row` finds. -/
structure Span (now : Timestamp) (db : Db) (row : Proxy) (user : User)
    (cursor until_ : Timestamp) : Prop where
  mem : row ∈ db.proxies
  accruable : row.Accruable true
  owner : db.user? row.userId = some user
  start : row.accrualCursorAt = some cursor
  confirmed : ∃ success ∈ row.lastSuccessAt,
    until_ = min now (success + minutes (healthStaleMinutes db))
  nonempty : cursor < until_

theorem Span.until_le {now : Timestamp} {db : Db} {row : Proxy} {user : User}
    {cursor until_ : Timestamp} (h : Span now db row user cursor until_) : until_ ≤ now := by
  obtain ⟨_, _, rfl⟩ := h.confirmed
  exact min_le_left _ _

/-- A visit to row `i` that found a span. -/
inductive Visit (now : Timestamp) (i : Nat) (db : Db) : Db → Prop where
  | skip {row : Proxy} {user : User} {cursor until_ : Timestamp} (hi : row.id = i)
      (span : Span now db row user cursor until_) (unpaid : ¬ user.Payable) :
      Visit now i db (setCursor db i until_)
  | credit {row : Proxy} {user : User} {cursor until_ : Timestamp} {news : List LedgerEntry}
      {ignored : Nat} (hi : row.id = i) (span : Span now db row user cursor until_)
      (payable : user.Payable)
      (credits : Credits row cursor until_
        (cycleBucket (row.probationStartedAt.getD cursor) until_) news)
      (hignored : ignored = db.insertsIgnored ∨
        ∃ e ∈ db.ledger, e.proxyId = row.id ∧ cursor ≤ e.startedAt) :
      Visit now i db (setCursor
        { db with
          ledger := unlockCycle db.ledger i (row.probationStartedAt.getD cursor) until_ ++ news
          insertsIgnored := ignored } i until_)

/-- Any number of visits to the rows of `P`. -/
def Visits (now : Timestamp) (P : Nat → Prop) : Db → Db → Prop :=
  Relation.ReflTransGen fun db db' => ∃ i, P i ∧ Visit now i db db'

theorem Visits.refl {now : Timestamp} {P : Nat → Prop} (db : Db) : Visits now P db db :=
  Relation.ReflTransGen.refl

theorem Visits.trans {now : Timestamp} {P : Nat → Prop} {db db' db'' : Db}
    (h : Visits now P db db') (h' : Visits now P db' db'') : Visits now P db db'' :=
  Relation.ReflTransGen.trans h h'

theorem Visits.mono {now : Timestamp} {P Q : Nat → Prop} (hPQ : ∀ i, P i → Q i) {db db' : Db}
    (h : Visits now P db db') : Visits now Q db db' := by
  refine Relation.ReflTransGen.mono ?_ _ _ h
  rintro _ _ ⟨i, hi, hvisit⟩
  exact ⟨i, hPQ i hi, hvisit⟩

/-- The induction over visits. -/
theorem Visits.keeps {now : Timestamp} {P : Nat → Prop} {I : Db → Prop}
    (visit : ∀ i db db', P i → I db → Visit now i db db' → I db') {db db' : Db}
    (h : Visits now P db db') (hI : I db) : I db' := by
  induction h with
  | refl => exact hI
  | tail _ hstep ih =>
    obtain ⟨i, hi, hvisit⟩ := hstep
    exact visit i _ _ hi ih hvisit

/-- The rows differ in no column but the cursor. -/
def Proxy.SameButCursor (r r' : Proxy) : Prop :=
  r' = { r with accrualCursorAt := r'.accrualCursorAt }

theorem Proxy.SameButCursor.refl (r : Proxy) : r.SameButCursor r := rfl

theorem Proxy.SameButCursor.trans {r r' r'' : Proxy} (h : r.SameButCursor r')
    (h' : r'.SameButCursor r'') : r.SameButCursor r'' := by
  unfold Proxy.SameButCursor at *
  rw [h', h]

/-- What visits to rows of `P` leave alone: the other rows, these rows up to the cursor, and every
table but the ledger. -/
structure CursorsMoved (P : Nat → Prop) (db db' : Db) : Prop where
  rows : ∃ φ : Proxy → Proxy, db'.proxies = db.proxies.map φ ∧
    ∀ r : Proxy, r.SameButCursor (φ r) ∧ (¬ P r.id → φ r = r)
  users : db'.users = db.users
  wallets : db'.wallets = db.wallets
  payouts : db'.payouts = db.payouts
  settings : db'.settings = db.settings

theorem CursorsMoved.refl {P : Nat → Prop} (db : Db) : CursorsMoved P db db :=
  ⟨⟨id, by simp, fun r => ⟨.refl r, fun _ => rfl⟩⟩, rfl, rfl, rfl, rfl⟩

theorem CursorsMoved.trans {P : Nat → Prop} {db db' db'' : Db} (h : CursorsMoved P db db')
    (h' : CursorsMoved P db' db'') : CursorsMoved P db db'' := by
  obtain ⟨φ, hφ, hsame⟩ := h.rows
  obtain ⟨φ', hφ', hsame'⟩ := h'.rows
  refine ⟨⟨φ' ∘ φ, by rw [hφ', hφ, List.map_map], fun r => ⟨(hsame r).1.trans (hsame' _).1, ?_⟩⟩,
    h'.users.trans h.users, h'.wallets.trans h.wallets, h'.payouts.trans h.payouts,
    h'.settings.trans h.settings⟩
  intro hP
  have hφr : φ r = r := (hsame r).2 hP
  rw [Function.comp_apply, hφr]
  exact (hsame' r).2 hP

theorem setCursor_moved {P : Nat → Prop} {i : Nat} (hi : P i) (db : Db)
    (ledger : List LedgerEntry) (ignored : Nat) (at_ : Timestamp) :
    CursorsMoved P db
      (setCursor { db with ledger := ledger, insertsIgnored := ignored } i at_) := by
  refine ⟨⟨fun r => if r.id = i then { r with accrualCursorAt := some at_ } else r, rfl, ?_⟩,
    rfl, rfl, rfl, rfl⟩
  intro r
  by_cases h : r.id = i
  · simp [Proxy.SameButCursor, h, hi]
  · simp [Proxy.SameButCursor, h]

theorem Visit.moved {now : Timestamp} {P : Nat → Prop} {i : Nat} {db db' : Db} (hi : P i)
    (h : Visit now i db db') : CursorsMoved P db db' := by
  cases h with
  | skip => exact setCursor_moved hi db db.ledger db.insertsIgnored _
  | credit => exact setCursor_moved hi db _ _ _

theorem Visits.moved {now : Timestamp} {P : Nat → Prop} {db db' : Db} (h : Visits now P db db') :
    CursorsMoved P db db' :=
  h.keeps (I := CursorsMoved P db) (fun _ _ _ hi ih hvisit => ih.trans (hvisit.moved hi)) (.refl db)

theorem Visit.other_mem {now : Timestamp} {i : Nat} {db db' : Db} (h : Visit now i db db')
    {r : Proxy} (hr : r ∈ db.proxies) (hi : r.id ≠ i) : r ∈ db'.proxies := by
  cases h <;> exact Table.mem_update.mpr ⟨r, hr, if_neg hi⟩

theorem CursorsMoved.stale {P : Nat → Prop} {db db' : Db} (h : CursorsMoved P db db') :
    healthStaleMinutes db' = healthStaleMinutes db := by
  unfold healthStaleMinutes
  rw [h.settings]

theorem CursorsMoved.user? {P : Nat → Prop} {db db' : Db} (h : CursorsMoved P db db') (id : Nat) :
    db'.user? id = db.user? id := by
  unfold Db.user?
  rw [h.users]

theorem Proxy.SameButCursor.id {r r' : Proxy} (h : r.SameButCursor r') : r'.id = r.id := by
  rw [h]

theorem CursorsMoved.keyed {P : Nat → Prop} {db db' : Db} (h : CursorsMoved P db db')
    (hk : Table.Keyed Proxy.id db.proxies) : Table.Keyed Proxy.id db'.proxies := by
  obtain ⟨φ, hφ, hsame⟩ := h.rows
  rw [hφ]
  exact hk.map fun r _ => (hsame r).1.id

/-- Each row of the new table comes from a row of the old one. -/
theorem CursorsMoved.origin {P : Nat → Prop} {db db' : Db} (h : CursorsMoved P db db')
    {r' : Proxy} (hr' : r' ∈ db'.proxies) : ∃ r ∈ db.proxies, r.SameButCursor r' := by
  obtain ⟨φ, hφ, hsame⟩ := h.rows
  rw [hφ] at hr'
  obtain ⟨r, hr, rfl⟩ := List.mem_map.mp hr'
  exact ⟨r, hr, (hsame r).1⟩

/-- One visit, or none. -/
def Visited (now : Timestamp) (i : Nat) : Db → Db → Prop := Relation.ReflGen (Visit now i)

theorem creditRow_does {now : Timestamp} {db : Db} {row : Proxy} {user : User}
    {cursor until_ : Timestamp} (span : Span now db row user cursor until_)
    (payable : user.Payable) :
    Does (Visited now row.id) Db.Raises db
      (creditRow db row cursor until_ (row.probationStartedAt.getD cursor) now row.monthlyRate >>=
        fun db => pure (setCursor db row.id until_)) id := by
  set probation := row.probationStartedAt.getD cursor with hprobation
  -- whatever entries the span receives, the row was visited
  have finish : ∀ {db₁ : Db}, Adds row cursor until_ (cycleBucket probation until_)
      { db with ledger := unlockCycle db.ledger row.id probation until_ } db₁ →
      Visited now row.id db (setCursor db₁ row.id until_) := by
    rintro _ ⟨news, ignored, rfl, hnews, hignored⟩
    refine .single (.credit rfl span payable hnews (hignored.imp_right ?_))
    rintro ⟨e', he', hrow, hstart⟩
    rcases mem_unlockCycle he' with he | ⟨_, e, he, hid, _, _, rfl⟩
    · exact ⟨e', he, hrow, hstart⟩
    · exact ⟨e, he, hid, hstart⟩
  unfold creditRow
  by_cases hreach : probation + hours probationHours ≤ until_
  · have hbucket : cycleBucket probation until_ = .available := if_pos hreach
    simp only [hreach, if_true, bind_assoc]
    refine Does.bind_whole (fun _ he => ⟨db, .refl, Db.moveEntries_error he⟩) ?_
    · intro db₁ hdb₁
      have hdb₁' : db₁ = { db with ledger := unlockCycle db.ledger row.id probation until_ } := by
        rw [Db.moveEntries_ok hdb₁, unlockCycle, if_pos hreach]
      subst hdb₁'
      by_cases hcross : cursor < probation + hours probationHours
      · simp only [hcross, if_true, pure_bind]
        refine Does.ok (finish ?_)
        rw [hbucket]
        exact (addLedgerEntry_adds _ row _ _ _ now).trans (addLedgerEntry_adds _ row _ _ _ now)
          hcross.le hreach
      · simp only [hcross, if_false, pure_bind]
        refine Does.ok (finish ?_)
        rw [hbucket]
        exact addLedgerEntry_adds _ row _ _ _ now
  · have hbucket : cycleBucket probation until_ = .pending := if_neg hreach
    have hle : until_ ≤ probation + hours probationHours := (not_le.mp hreach).le
    simp only [hreach, if_false, pure_bind, hle, if_true]
    refine Does.ok (finish ?_)
    rw [hbucket, unlockCycle, if_neg hreach]
    exact addLedgerEntry_adds _ row _ _ _ now

/-- One iteration of the accrual loop visits its row at most once. -/
theorem accrueRow_does {now : Timestamp} {db : Db} {row : Proxy} {user : User}
    (hrow : row ∈ db.proxies) (haccruable : row.Accruable true)
    (howner : db.user? row.userId = some user) :
    Does (Visited now row.id) Db.Raises db
      (accrueRow now (healthStaleMinutes db) db row user) id := by
  unfold accrueRow
  cases hsuccess : row.lastSuccessAt with
  | none => exact Does.ok .refl
  | some success =>
    simp only
    set until_ := min now (success + minutes (healthStaleMinutes db)) with huntil
    refine Does.ite (fun _ => Does.ok .refl) fun hne => ?_
    -- a row without a cursor would have an empty span
    obtain ⟨cursor, hcursor⟩ : ∃ cursor, row.accrualCursorAt = some cursor := by
      cases hc : row.accrualCursorAt with
      | none =>
        refine absurd ?_ hne
        rw [hc, Option.getD_none]
        exact min_le_left _ _
      | some cursor => exact ⟨cursor, rfl⟩
    simp only [hcursor, Option.getD_some] at hne ⊢
    have span : Span now db row user cursor until_ :=
      ⟨hrow, haccruable, howner, hcursor, ⟨success, hsuccess, huntil⟩, not_le.mp hne⟩
    refine Does.ite (fun hpay => Does.ok (.single (.skip rfl span hpay))) fun hpay => ?_
    refine Does.ite (fun _ => Does.ok .refl) fun _ => Does.ite (fun _ => Does.ok .refl) fun _ => ?_
    exact creditRow_does span (not_not.mp hpay)

theorem mem_accrualRows {db : Db} {proxyId : Option Nat} {includeSuspect : Bool} {row : Proxy}
    {user : User} (h : (row, user) ∈ accrualRows db proxyId includeSuspect) :
    row ∈ db.proxies ∧ (row.Accruable includeSuspect ∧ ∀ i ∈ proxyId, row.id = i) ∧
      db.user? row.userId = some user := by
  obtain ⟨r, hr, huser⟩ := List.mem_filterMap.mp h
  obtain ⟨u, hu, heq⟩ := Option.map_eq_some_iff.mp huser
  obtain ⟨rfl, rfl⟩ := Prod.mk.inj heq
  obtain ⟨hmem, hkeep⟩ := List.mem_filter.mp hr
  exact ⟨hmem, of_decide_eq_true hkeep, hu⟩

theorem accrualRows_distinct {db : Db} (hk : Table.Keyed Proxy.id db.proxies)
    (proxyId : Option Nat) (includeSuspect : Bool) :
    Table.Keyed (fun p : Proxy × User => p.1.id) (accrualRows db proxyId includeSuspect) := by
  unfold accrualRows
  generalize hrows : db.proxies.filter _ = rows
  have hkeyed : Table.Keyed Proxy.id rows := by
    rw [← hrows]
    exact List.Nodup.sublist (List.filter_sublist.map _) hk
  clear hrows
  induction rows with
  | nil => exact List.nodup_nil
  | cons r rows ih =>
    obtain ⟨hr, hrest⟩ := List.nodup_cons.mp hkeyed
    cases hu : db.user? r.userId with
    | none => simpa [hu] using ih hrest
    | some u =>
      rw [List.filterMap_cons_some (by rw [hu]; rfl)]
      refine List.nodup_cons.mpr ⟨?_, ih hrest⟩
      intro hmem
      obtain ⟨p, hp, hid⟩ := List.mem_map.mp hmem
      obtain ⟨r', hr', hr''⟩ := List.mem_filterMap.mp hp
      obtain ⟨u', _, rfl⟩ := Option.map_eq_some_iff.mp hr''
      exact hr (List.mem_map.mpr ⟨r', hr', hid⟩)

theorem Proxy.Accruable.withSuspect {r : Proxy} {includeSuspect : Bool}
    (h : r.Accruable includeSuspect) : r.Accruable true :=
  ⟨h.1, h.2.1.imp_right fun hs => ⟨rfl, hs.2⟩, h.2.2⟩

/-- The rows a call of `accrueEligibleTimeLocked` may visit. -/
def Selected (proxyId : Option Nat) (i : Nat) : Prop := ∀ j ∈ proxyId, i = j

theorem accrueEligibleTimeLocked_does {now : Timestamp} {db : Db}
    (hk : Table.Keyed Proxy.id db.proxies) (proxyId : Option Nat) (includeSuspect : Bool) :
    Does (Visits now (Selected proxyId)) Db.Raises db
      (accrueEligibleTimeLocked db now proxyId includeSuspect) id := by
  unfold accrueEligibleTimeLocked
  -- the rows still to visit stand in the table as the query read them
  refine Does.foldlM (I := fun rest db' => CursorsMoved (Selected proxyId) db db' ∧
    Table.Keyed (fun p : Proxy × User => p.1.id) rest ∧
    ∀ p ∈ rest, p.1 ∈ db'.proxies ∧ (p.1.Accruable true ∧ Selected proxyId p.1.id) ∧
      db.user? p.1.userId = some p.2)
    Visits.refl (fun _ _ _ => Visits.trans) ?_ _ db ⟨.refl db, accrualRows_distinct hk _ _, ?_⟩
  · rintro ⟨row, user⟩ rest db' ⟨hmoved, hkeyed, hrest⟩
    obtain ⟨hrow, ⟨haccruable, hselected⟩, howner⟩ := hrest (row, user) (by simp)
    have hdoes := @accrueRow_does now _ _ _ hrow haccruable ((hmoved.user? _).trans howner)
    rw [hmoved.stale] at hdoes
    constructor
    · refine hdoes.mono fun s hs => ?_
      cases hs with
      | refl => exact .refl _
      | single hvisit => exact .single ⟨_, hselected, hvisit⟩
    · intro db'' hdb''
      obtain ⟨hfirst, hkeyed'⟩ := List.nodup_cons.mp hkeyed
      cases hdoes.of_ok hdb'' with
      | refl => exact ⟨hmoved, hkeyed', fun p hp => hrest p (by simp [hp])⟩
      | single hvisit =>
        refine ⟨hmoved.trans (hvisit.moved hselected), hkeyed', fun p hp => ?_⟩
        obtain ⟨hmem, hrest'⟩ := hrest p (by simp [hp])
        refine ⟨hvisit.other_mem hmem fun hid => hfirst ?_, hrest'⟩
        exact List.mem_map.mpr ⟨p, hp, hid⟩
  · rintro ⟨row, user⟩ hp
    obtain ⟨hrow, ⟨haccruable, hselected⟩, howner⟩ := mem_accrualRows hp
    exact ⟨hrow, ⟨haccruable.withSuspect, hselected⟩, howner⟩

theorem accrueProxyTime_does {now : Timestamp} {db : Db} (hk : Table.Keyed Proxy.id db.proxies)
    (proxyId : Nat) :
    Does (Visits now (· = proxyId)) Db.Raises db (accrueProxyTime db proxyId now) id :=
  (accrueEligibleTimeLocked_does hk _ _).mono fun _ => Visits.mono fun _ h => h proxyId rfl

theorem accrueEligibleTime_does {now : Timestamp} {db : Db}
    (hk : Table.Keyed Proxy.id db.proxies) :
    Does (Visits now fun _ => True) Db.Raises db (accrueEligibleTime db now) id :=
  (accrueEligibleTimeLocked_does hk _ _).mono fun _ => Visits.mono fun _ _ => trivial

end EarnProxy
