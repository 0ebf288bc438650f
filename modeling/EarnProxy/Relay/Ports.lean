import EarnProxy.Relay.CheckJobs

/-!
# Listener ports of the relay

Each row has a port of its own in two columns, and each column has a counter in the settings that
only goes up. The counters are what keeps a port from being given out again after its row is gone;
`conn` derives them from the rows that are left when the settings have none.
-/

namespace EarnProxy.Relay

/-- The counter of a column that has none yet; a largest port of zero counts as none. -/
def firstPort (base : Nat) (used : List Nat) : Nat :=
  match used.max? with
  | none => base
  | some maximum => max base (if maximum = 0 then base else maximum + 1)

/-- The tables as the first `conn` leaves them. -/
def bootstrap (config : Config) (proxies : List Proxy) (batches : List ImportBatch) : Db where
  proxies := proxies
  batches := batches
  nextHttpPort := firstPort config.httpBase (proxies.map Proxy.httpPort)
  nextSocksPort := firstPort config.socksBase (proxies.map Proxy.socksPort)

/-- A row and its ports. -/
def Proxy.listeners (r : Proxy) : Nat × Nat × Nat := (r.id, r.httpPort, r.socksPort)

/-- The ports of the stored rows differ, across both columns, and lie in their ranges. -/
structure Db.PortsApart (config : Config) (db : Db) : Prop where
  nodup : (db.proxies.map Proxy.httpPort ++ db.proxies.map Proxy.socksPort).Nodup
  http : ∀ r ∈ db.proxies, config.httpBase ≤ r.httpPort ∧ r.httpPort < config.httpBase + 9999
  socks : ∀ r ∈ db.proxies, config.socksBase ≤ r.socksPort ∧ r.socksPort < config.socksBase + 9999

instance (config : Config) (db : Db) : Decidable (db.PortsApart config) :=
  decidable_of_iff (_ ∧ _ ∧ _) ⟨fun h => ⟨h.1, h.2.1, h.2.2⟩, fun h => ⟨h.nodup, h.http, h.socks⟩⟩

/-- The rows of `s'` are rows of `s`, and new rows, whose ports no row has had at any time
before. -/
def NeverReissued (s₀ : State) (h : List (Event × State)) (s s' : State) : Prop :=
  ∃ kept news, s'.db.proxies = kept ++ news ∧
    (kept.map Proxy.listeners).Sublist (s.db.proxies.map Proxy.listeners) ∧
    ∀ r' ∈ news, ∀ x, History.Visited s₀ h x → ∀ r ∈ x.db.proxies,
      List.Disjoint [r'.httpPort, r'.socksPort] [r.httpPort, r.socksPort]

/-! ## One column -/

/-- A port column with its counter. -/
structure PortColumn where
  base : Config → Nat
  port : Proxy → Nat
  next : Db → Nat

def httpColumn : PortColumn := ⟨Config.httpBase, Proxy.httpPort, Db.nextHttpPort⟩
def socksColumn : PortColumn := ⟨Config.socksBase, Proxy.socksPort, Db.nextSocksPort⟩

namespace PortColumn

variable (c : PortColumn) (config : Config)

/-- The new rows got their ports from the counter, which has moved past them. -/
structure Issues (db db' : Db) (news : List Proxy) : Prop where
  next_le : c.next db ≤ c.next db'
  nodup : (news.map c.port).Nodup
  bounds : ∀ r ∈ news,
    c.next db ≤ c.port r ∧ c.port r < c.next db' ∧ c.port r < c.base config + 9999

/-- The counter is past every port that a row has had. -/
structure Past (s₀ : State) (h : List (Event × State)) (s : State) : Prop where
  base_le : c.base config ≤ c.next s.db
  visited : ∀ x, History.Visited s₀ h x → ∀ r ∈ x.db.proxies,
    c.base config ≤ c.port r ∧ c.port r < c.next s.db ∧ c.port r < c.base config + 9999
  nodup : (s.db.proxies.map c.port).Nodup

variable {c config} {db db' db'' : Db} {news : List Proxy}

theorem Issues.nothing (hle : c.next db ≤ c.next db') : c.Issues config db db' [] :=
  ⟨hle, List.nodup_nil, fun _ hr => absurd hr List.not_mem_nil⟩

theorem Issues.congr (h : c.Issues config db db' news) (hnext : c.next db'' = c.next db') :
    c.Issues config db db'' news := by
  obtain ⟨hle, hnodup, hbounds⟩ := h
  rw [← hnext] at hle
  refine ⟨hle, hnodup, fun r hr => ?_⟩
  rw [hnext]
  exact hbounds r hr

theorem Issues.one {r : Proxy} (hle : c.next db ≤ c.port r) (hlt : c.port r < c.next db')
    (hrange : c.port r < c.base config + 9999) : c.Issues config db db' [r] where
  next_le := hle.trans hlt.le
  nodup := List.nodup_singleton _
  bounds := fun _ hr' => List.mem_singleton.mp hr' ▸ ⟨hle, hlt, hrange⟩

theorem Issues.trans {later : List Proxy} (h : c.Issues config db db' news)
    (h' : c.Issues config db' db'' later) : c.Issues config db db'' (news ++ later) where
  next_le := h.next_le.trans h'.next_le
  nodup := by
    rw [List.map_append, List.nodup_append]
    refine ⟨h.nodup, h'.nodup, fun p hp q hq => ?_⟩
    obtain ⟨r, hr, rfl⟩ := List.mem_map.mp hp
    obtain ⟨r', hr', rfl⟩ := List.mem_map.mp hq
    have hlt := (h.bounds r hr).2.1
    have hle := (h'.bounds r' hr').1
    omega
  bounds := by
    intro r hr
    rcases List.mem_append.mp hr with hr | hr
    · obtain ⟨hle, hlt, hrange⟩ := h.bounds r hr
      exact ⟨hle, hlt.trans_le h'.next_le, hrange⟩
    · obtain ⟨hle, hlt, hrange⟩ := h'.bounds r hr
      exact ⟨h.next_le.trans hle, hlt, hrange⟩

/-- A step whose new rows take their ports from the counter. -/
theorem Past.step {s₀ s s' : State} {h : List (Event × State)} {e : Event} {kept : List Proxy}
    (hp : c.Past config s₀ h s) (hrun : History.Visited s₀ h s)
    (hrows : s'.db.proxies = kept ++ news)
    (hkept : (kept.map c.port).Sublist (s.db.proxies.map c.port))
    (hissues : c.Issues config s.db s'.db news) : c.Past config s₀ ((e, s') :: h) s' := by
  have hbefore : ∀ r ∈ kept, ∃ r₀ ∈ s.db.proxies, c.port r₀ = c.port r := fun r hr =>
    List.mem_map.mp (hkept.subset (List.mem_map_of_mem hr))
  refine ⟨hp.base_le.trans hissues.next_le, fun x hx r hr => ?_, ?_⟩
  · have hold : ∀ y, History.Visited s₀ h y → ∀ r ∈ y.db.proxies,
        c.base config ≤ c.port r ∧ c.port r < c.next s'.db ∧ c.port r < c.base config + 9999 := by
      intro y hy r hr
      obtain ⟨hbase, hlt, hrange⟩ := hp.visited y hy r hr
      exact ⟨hbase, hlt.trans_le hissues.next_le, hrange⟩
    rcases hx with rfl | ⟨y, hy, rfl⟩
    · exact hold x (.inl rfl) r hr
    rcases List.mem_cons.mp hy with rfl | hy
    · rcases List.mem_append.mp (hrows ▸ hr : r ∈ kept ++ news) with hr | hr
      · obtain ⟨r₀, hr₀, hport⟩ := hbefore r hr
        exact hport ▸ hold s hrun r₀ hr₀
      · obtain ⟨hle, hlt, hrange⟩ := hissues.bounds r hr
        exact ⟨hp.base_le.trans hle, hlt, hrange⟩
    · exact hold y.2 (.inr ⟨y, hy, rfl⟩) r hr
  · rw [hrows, List.map_append, List.nodup_append]
    refine ⟨hkept.nodup hp.nodup, hissues.nodup, fun p hp' q hq => ?_⟩
    obtain ⟨r, hr, rfl⟩ := List.mem_map.mp hp'
    obtain ⟨r', hr', rfl⟩ := List.mem_map.mp hq
    obtain ⟨r₀, hr₀, hport⟩ := hbefore r hr
    have hlt := (hp.visited s hrun r₀ hr₀).2.1
    have hle := (hissues.bounds r' hr').1
    omega

end PortColumn

/-! ## The requests -/

section Requests

variable {config : Config} {db db' : Db}

theorem le_freePort (used : List Nat) (value : Nat) : value ≤ freePort used value := by
  unfold freePort
  cases hfind : ((List.range (used.length + 1)).map (value + ·)).find? (· ∉ used) with
  | none => exact le_rfl
  | some port =>
    obtain ⟨k, -, rfl⟩ := List.mem_map.mp (List.mem_of_find?_eq_some hfind)
    exact Nat.le_add_right value k

theorem nextPort_some {base next value : Nat} {used : List Nat}
    (h : nextPort base next used = some value) : next ≤ value ∧ value < base + 9999 := by
  unfold nextPort at h
  dsimp only at h
  split at h
  · cases h
  · rename_i hrange
    obtain rfl := Option.some.inj h
    exact ⟨le_freePort used next, Nat.lt_of_not_le hrange⟩

/-- What a part of an import adds. -/
structure Adds (config : Config) (db db' : Db) (news : List Proxy) : Prop where
  rows : db'.proxies = db.proxies ++ news
  http : httpColumn.Issues config db db' news
  socks : socksColumn.Issues config db db' news

theorem Adds.nothing (hrows : db'.proxies = db.proxies) (hhttp : db.nextHttpPort ≤ db'.nextHttpPort)
    (hsocks : db.nextSocksPort ≤ db'.nextSocksPort) : Adds config db db' [] :=
  ⟨by rw [hrows, List.append_nil], .nothing hhttp, .nothing hsocks⟩

theorem Adds.trans {db'' : Db} {news later : List Proxy} (h : Adds config db db' news)
    (h' : Adds config db' db'' later) : Adds config db db'' (news ++ later) :=
  ⟨by rw [h'.rows, h.rows, List.append_assoc], h.http.trans h'.http, h.socks.trans h'.socks⟩

/-- A line moves a counter even when it is refused for want of the other port. -/
theorem importLine_adds (batchId : Nat) (acc : Import) (line : Option ParsedLine) :
    ∃ news, Adds config acc.db (importLine config batchId acc line).db news := by
  unfold importLine
  cases line with
  | none => exact ⟨[], .nothing rfl le_rfl le_rfl⟩
  | some line =>
    dsimp only
    split
    · exact ⟨[], .nothing rfl le_rfl le_rfl⟩
    split
    · exact ⟨[], .nothing rfl le_rfl le_rfl⟩
    rename_i httpPort hhttp
    obtain ⟨hle, hrange⟩ := nextPort_some hhttp
    split
    · exact ⟨[], .nothing rfl (Nat.le_succ_of_le hle) le_rfl⟩
    rename_i socksPort hsocks
    obtain ⟨hle', hrange'⟩ := nextPort_some hsocks
    exact ⟨_, rfl, .one hle (Nat.lt_succ_self _) hrange, .one hle' (Nat.lt_succ_self _) hrange'⟩

variable (config db) in
theorem importProxy_adds (lines : List (Option ParsedLine)) :
    ∃ news, Adds config db (importProxy config db lines).1 news := by
  have hlines : ∃ news, Adds config db (importLines config db lines).db news := by
    unfold importLines
    have hopened : ∃ news, Adds config db (openBatch db lines.length) news :=
      ⟨[], .nothing rfl le_rfl le_rfl⟩
    refine List.foldlRecOn (motive := fun acc : Import => ∃ news, Adds config db acc.db news)
      lines _ hopened fun acc h line _ => ?_
    obtain ⟨news, hnews⟩ := h
    obtain ⟨later, hlater⟩ := importLine_adds _ acc line
    exact ⟨news ++ later, hnews.trans hlater⟩
  obtain ⟨news, hnews⟩ := hlines
  exact ⟨news, hnews.rows, hnews.http.congr rfl, hnews.socks.congr rfl⟩

variable (db) in
/-- A result is written into the columns that are not ports. -/
theorem writeResults_listeners (job : Job) (results : List (Nat × CheckResult)) (now : Timestamp) :
    (writeResults db job results now).proxies.map Proxy.listeners =
      db.proxies.map Proxy.listeners ∧
    (writeResults db job results now).nextHttpPort = db.nextHttpPort ∧
    (writeResults db job results now).nextSocksPort = db.nextSocksPort := by
  refine List.foldlRecOn (motive := fun db' : Db =>
    db'.proxies.map Proxy.listeners = db.proxies.map Proxy.listeners ∧
      db'.nextHttpPort = db.nextHttpPort ∧ db'.nextSocksPort = db.nextSocksPort) results
    (writeResult job.rows now) ⟨rfl, rfl, rfl⟩ fun db' h p _ => ?_
  unfold writeResult
  split
  · exact h
  · refine ⟨?_, h.2⟩
    refine (Table.map_update_of_forall Proxy.listeners ?_ _).trans h.1
    intro r _
    rfl

variable (db) in
theorem undoImport_rows (now : Timestamp) :
    (undoImport db now).proxies.Sublist db.proxies ∧
      (undoImport db now).nextHttpPort = db.nextHttpPort ∧
      (undoImport db now).nextSocksPort = db.nextSocksPort := by
  unfold undoImport
  split
  · exact ⟨.refl _, rfl, rfl⟩
  · exact ⟨List.filter_sublist, rfl, rfl⟩

/-- What an event makes of the rows: some go, and the rows of an import come behind the others. -/
theorem step_listeners {s s' : State} {e : Event} (hstep : Step config s e s') :
    ∃ kept news, s'.db.proxies = kept ++ news ∧
      (kept.map Proxy.listeners).Sublist (s.db.proxies.map Proxy.listeners) ∧
      httpColumn.Issues config s.db s'.db news ∧ socksColumn.Issues config s.db s'.db news := by
  -- a request that adds no row
  have removes : ∀ db' : Db, s'.db = db' →
      (db'.proxies.map Proxy.listeners).Sublist (s.db.proxies.map Proxy.listeners) →
      db'.nextHttpPort = s.db.nextHttpPort → db'.nextSocksPort = s.db.nextSocksPort →
      ∃ kept news, s'.db.proxies = kept ++ news ∧
        (kept.map Proxy.listeners).Sublist (s.db.proxies.map Proxy.listeners) ∧
        httpColumn.Issues config s.db s'.db news ∧ socksColumn.Issues config s.db s'.db news := by
    rintro db' rfl hrows hhttp hsocks
    exact ⟨s'.db.proxies, [], (List.append_nil _).symm, hrows, .nothing hhttp.ge,
      .nothing hsocks.ge⟩
  unfold Step State.next at hstep
  split at hstep
  · split at hstep
    · cases hstep
    · obtain rfl := Option.some.inj hstep
      exact removes s.db rfl (.refl _) rfl rfl
  · rename_i jobId results _
    obtain ⟨job, -, rfl⟩ := Option.map_eq_some_iff.mp hstep
    obtain ⟨hrows, hhttp, hsocks⟩ := writeResults_listeners s.db job results e.now
    exact removes _ rfl (hrows ▸ .refl _) hhttp hsocks
  · rename_i lines _
    obtain rfl := Option.some.inj hstep
    obtain ⟨news, hnews⟩ := importProxy_adds config s.db lines
    exact ⟨s.db.proxies, news, hnews.rows, .refl _, hnews.http, hnews.socks⟩
  · obtain rfl := Option.some.inj hstep
    exact removes _ rfl (List.filter_sublist.map _) rfl rfl
  · obtain rfl := Option.some.inj hstep
    exact removes _ rfl (List.nil_sublist _) rfl rfl
  · obtain ⟨hrows, hhttp, hsocks⟩ := undoImport_rows s.db e.now
    split at hstep
    · obtain rfl := Option.some.inj hstep
      exact removes _ rfl (hrows.map _) hhttp hsocks
    · obtain rfl := Option.some.inj hstep
      exact removes s.db rfl (.refl _) rfl rfl

end Requests

/-! ## Every run -/

section Runs

variable {config : Config} {proxies : List Proxy} {batches : List ImportBatch}
  {h : List (Event × State)} {s : State}

theorem le_firstPort (base : Nat) (used : List Nat) : base ≤ firstPort base used := by
  unfold firstPort
  split
  · exact le_rfl
  · exact Nat.le_max_left _ _

/-- The first counter is past the ports of the rows that are there. -/
theorem lt_firstPort {base p : Nat} {used : List Nat} (hp : p ∈ used) (hzero : p ≠ 0) :
    p < firstPort base used := by
  obtain ⟨maximum, hmax⟩ := Option.ne_none_iff_exists'.mp
    (mt List.max?_eq_none_iff.mp (List.ne_nil_of_mem hp))
  have hle : p ≤ maximum := (List.max?_eq_some_iff.mp hmax).2 p hp
  unfold firstPort
  rw [hmax]
  dsimp only
  rw [if_neg (by omega)]
  omega

theorem PortColumn.Past.start (c : PortColumn) {db₀ : Db}
    (hnext : c.next db₀ = firstPort (c.base config) (db₀.proxies.map c.port))
    (hrange : ∀ r ∈ db₀.proxies,
      c.base config ≤ c.port r ∧ c.port r < c.base config + 9999)
    (hzero : ∀ r ∈ db₀.proxies, c.port r ≠ 0) (hnodup : (db₀.proxies.map c.port).Nodup) :
    c.Past config { db := db₀ } [] { db := db₀ } where
  base_le := hnext ▸ le_firstPort _ _
  visited := by
    intro x hx r hr
    obtain rfl : x = { db := db₀ } := hx.resolve_right (by rintro ⟨_, hy, _⟩; cases hy)
    refine ⟨(hrange r hr).1, ?_, (hrange r hr).2⟩
    rw [hnext]
    exact lt_firstPort (List.mem_map_of_mem hr) (hzero r hr)
  nodup := hnodup

/-- Both counters are past the ports that rows have had. -/
theorem Runs.past (hapart : (bootstrap config proxies batches).PortsApart config)
    (hzero : ∀ r ∈ proxies, r.httpPort ≠ 0 ∧ r.socksPort ≠ 0)
    (run : Runs config (bootstrap config proxies batches) h s) :
    httpColumn.Past config { db := bootstrap config proxies batches } h s ∧
      socksColumn.Past config { db := bootstrap config proxies batches } h s := by
  have hnodup := List.nodup_append.mp hapart.nodup
  refine History.Run.invariant (I := fun h s =>
    httpColumn.Past config { db := bootstrap config proxies batches } h s ∧
      socksColumn.Past config { db := bootstrap config proxies batches } h s) ?_ ?_ run
  · exact ⟨.start _ rfl hapart.http (fun r hr => (hzero r hr).1) hnodup.1,
      .start _ rfl hapart.socks (fun r hr => (hzero r hr).2) hnodup.2.1⟩
  · intro h s e s' hrun hpast hstep
    obtain ⟨kept, news, hrows, hkept, hhttp, hsocks⟩ := step_listeners hstep
    have hports (f : Nat × Nat × Nat → Nat) : ((kept.map Proxy.listeners).map f).Sublist
        ((s.db.proxies.map Proxy.listeners).map f) := hkept.map f
    simp only [List.map_map] at hports
    exact ⟨hpast.1.step hrun.visited hrows (hports fun ports => ports.2.1) hhttp,
      hpast.2.step hrun.visited hrows (hports fun ports => ports.2.2) hsocks⟩

/-- The ports of stored rows are never the same, and no port is given out twice. -/
theorem ports_never_reissued
    (hbases : config.httpBase + 9999 ≤ config.socksBase ∨ config.socksBase + 9999 ≤ config.httpBase)
    (hapart : (bootstrap config proxies batches).PortsApart config)
    (hzero : ∀ r ∈ proxies, r.httpPort ≠ 0 ∧ r.socksPort ≠ 0)
    (run : Runs config (bootstrap config proxies batches) h s) :
    s.db.PortsApart config ∧ ∀ e s', Step config s e s' →
      NeverReissued { db := bootstrap config proxies batches } h s s' := by
  obtain ⟨hhttp, hsocks⟩ := run.past hapart hzero
  have hvisited : History.Visited { db := bootstrap config proxies batches } h s :=
    History.Run.visited run
  constructor
  · refine ⟨?_, fun r hr => ?_, fun r hr => ?_⟩
    · refine List.nodup_append.mpr ⟨hhttp.nodup, hsocks.nodup, fun p hp q hq => ?_⟩
      obtain ⟨r, hr, rfl⟩ := List.mem_map.mp hp
      obtain ⟨r', hr', rfl⟩ := List.mem_map.mp hq
      have hp' := hhttp.visited s hvisited r hr
      have hq' := hsocks.visited s hvisited r' hr'
      simp only [httpColumn, socksColumn] at hp' hq'
      omega
    · obtain ⟨hbase, -, hrange⟩ := hhttp.visited s hvisited r hr
      exact ⟨hbase, hrange⟩
    · obtain ⟨hbase, -, hrange⟩ := hsocks.visited s hvisited r hr
      exact ⟨hbase, hrange⟩
  · intro e s' hstep
    obtain ⟨kept, news, hrows, hkept, hhttp', hsocks'⟩ := step_listeners hstep
    refine ⟨kept, news, hrows, hkept, fun r' hr' x hx r hr => ?_⟩
    have hp := hhttp.visited x hx r hr
    have hq := hsocks.visited x hx r hr
    have hp' := hhttp'.bounds r' hr'
    have hq' := hsocks'.bounds r' hr'
    have hbase := hhttp.base_le
    have hbase' := hsocks.base_le
    simp only [httpColumn, socksColumn] at hp hq hp' hq' hbase hbase'
    simp only [List.disjoint_left, List.mem_cons, List.not_mem_nil, or_false]
    rintro p (rfl | rfl) (heq | heq) <;> omega

end Runs

namespace Scenario

/-- A proxy is imported and deleted, and another one is imported with a line that does not parse. -/
def reimported : List Event :=
  [⟨.importProxy [line "first.example"], 0⟩, ⟨.delete [1], 1⟩,
    ⟨.importProxy [none, line "second.example"], 2⟩]

end Scenario

open EarnProxy.Relay.Scenario in
theorem ports_never_reissued_reimported :
    (after reimported).db.PortsApart config ∧ ∀ e s', Step config (after reimported) e s' →
      NeverReissued { db := bootstrap config [] [] } (history reimported) (after reimported) s' :=
  ports_never_reissued (by decide) (by decide) (fun _ hr => absurd hr List.not_mem_nil)
    (runs (by decide +kernel))

end EarnProxy.Relay
