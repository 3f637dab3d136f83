/-
# The PID map loses nothing

Which reports `extract_pid_structure` walks through without an exception (`extract_returns_iff`),
which files `load_pid_structure` reads without one (`load_returns_iff`), and what the map of a
report with lists holds (`maps_all_iff`).

Every loop of the source skips what it cannot use and raises on what it cannot iterate, so a loop is
described by two facts: when it raises (`collect_ne_none`) and what it keeps (`collect_filterMap`).
The results about reports are these facts about the two lists, with the shares in between.
-/
import IngestFarm.PidStructure

namespace Etr290

/-! ## Loops over untyped entries -/

/-- What `value or []` can be iterated over. -/
def Iterable (value : Json) : Prop :=
  value.truthy = false ∨ match value with
    | .arr _ => True
    | .str _ => True
    | .obj _ => True
    | _ => False

/-- A loop over a value raises exactly where the value is not iterable. -/
theorem iterate_ne_none {value : Json} : iterate value ≠ none ↔ Iterable value := by
  unfold iterate Iterable
  by_cases h : value.truthy = false
  · simp [h]
  · rw [if_neg h]
    cases value <;> simp [h]

/-- The integer id of an entry, if it has one. -/
def entryId : Json → Option ℤ
  | .obj raw => asInt (get raw "id")
  | _ => none

/-- The bit rate of an entry with an integer id. -/
def entryBitrate : Json → Option ℤ
  | .obj raw => (asInt (get raw "id")).bind fun _ => asInt (get raw "bitrate")
  | _ => none

/-- An entry with an integer id whose nested member cannot be iterated. -/
def Blocked (key : String) (x : Json) : Prop :=
  entryId x ≠ none ∧ ∃ raw, x = .obj raw ∧ ¬ Iterable (get raw key)

section Collect

variable {α : Type} {f : Json → Option (Option α)} {xs : List Json} {ys : List α}

/-- A loop ends if its body does for every element. -/
theorem collect_ne_none : collect f xs ≠ none ↔ ∀ x ∈ xs, f x ≠ none := by
  induction xs with
  | nil => simp [collect]
  | cons x xs ih =>
    rw [List.forall_mem_cons, ← ih, collect]
    rcases f x with _ | y
    · simp
    · rcases collect f xs with _ | ys <;> simp

/-- What is collected has, member by member, what the elements have. -/
theorem collect_filterMap {β : Type} {g : α → Option β} {g' : Json → Option β}
    (hg : ∀ x y, f x = some y → y.bind g = g' x) (h : collect f xs = some ys) :
    ys.filterMap g = xs.filterMap g' := by
  induction xs generalizing ys with
  | nil =>
    obtain rfl := Option.some.inj h
    rfl
  | cons x xs ih =>
    rw [collect] at h
    rcases hx : f x with _ | y <;> rw [hx] at h
    · exact absurd h (by simp)
    rcases hxs : collect f xs with _ | zs <;> rw [hxs] at h
    · exact absurd h (by simp)
    obtain rfl := Option.some.inj h
    have hy := hg x y hx
    rw [List.filterMap_append, ih hxs, List.filterMap_cons, ← hy]
    rcases y with _ | y
    · rfl
    · rw [Option.bind_some, Option.toList_some]
      rcases hgy : g y with _ | z <;> simp [hgy]

end Collect

/-! ## Entries -/

/-- The same for a list of numbers. -/
theorem intsOf_eq_none {value : Json} : intsOf value = none ↔ ¬ Iterable value := by
  rw [← iterate_ne_none, not_not]
  unfold intsOf
  rw [Option.map_eq_none_iff]

/-- A service is blocked by its list of components. -/
theorem serviceEntry_eq_none {x : Json} : serviceEntry x = none ↔ Blocked "pids" x := by
  unfold Blocked entryId
  rcases x with _ | _ | _ | _ | _ | _ | raw
  case obj =>
    unfold serviceEntry
    rcases hid : asInt (get raw "id") with _ | sid
    · simp [hid]
    · simp [hid, intsOf_eq_none]
  all_goals simp [serviceEntry]

/-- A component is blocked by its list of services. -/
theorem pidEntry_eq_none {x : Json} : pidEntry x = none ↔ Blocked "services" x := by
  unfold Blocked entryId
  rcases x with _ | _ | _ | _ | _ | _ | raw
  case obj =>
    unfold pidEntry
    rcases hid : asInt (get raw "id") with _ | pid
    · simp [hid]
    · simp [hid, intsOf_eq_none]
  all_goals simp [pidEntry]

/-- A service keeps its id. -/
theorem serviceEntry_id {x : Json} {y : Option ServiceEntry} (h : serviceEntry x = some y) :
    (y.bind fun s => some s.id) = entryId x := by
  unfold entryId
  rcases x with _ | _ | _ | _ | _ | _ | raw
  case obj =>
    dsimp only [serviceEntry] at h
    rcases hid : asInt (get raw "id") with _ | sid <;> rw [hid] at h
    · obtain rfl := Option.some.inj h
      exact hid.symm
    · obtain ⟨pidIds, -, rfl⟩ := Option.map_eq_some_iff.mp h
      exact hid.symm
  all_goals
    obtain rfl := Option.some.inj h
    rfl

/-- A PID keeps its id and its bit rate, and has no stuffing mark or share yet. -/
theorem pidEntry_fields {x : Json} {y : Option PidEntry} (h : pidEntry x = some y) :
    (y.bind fun p => some p.id) = entryId x ∧ y.bind PidEntry.bitrateBps = entryBitrate x ∧
      ∀ p, y = some p → p.sharePct = none := by
  unfold entryId entryBitrate
  rcases x with _ | _ | _ | _ | _ | _ | raw
  case obj =>
    dsimp only [pidEntry] at h ⊢
    rcases hid : asInt (get raw "id") with _ | pid <;> rw [hid] at h
    · obtain rfl := Option.some.inj h
      exact ⟨rfl, rfl, fun _ hp => absurd hp (by simp)⟩
    · obtain ⟨serviceIds, -, rfl⟩ := Option.map_eq_some_iff.mp h
      refine ⟨rfl, rfl, fun p hp => ?_⟩
      obtain rfl := Option.some.inj hp
      rfl
  all_goals
    obtain rfl := Option.some.inj h
    exact ⟨rfl, rfl, fun _ hp => absurd hp (by simp)⟩

/-! ## The null PID -/

section NullPid

variable {lower : List Char → List Char} {share : ℤ → ℤ → PyFloat} {pids out : List PidEntry}

@[simp] theorem relabel_id (p : PidEntry) : (relabel lower p).id = p.id := by
  unfold relabel
  split_ifs <;> rfl

@[simp] theorem relabel_bitrateBps (p : PidEntry) :
    (relabel lower p).bitrateBps = p.bitrateBps := by
  unfold relabel
  split_ifs <;> rfl

@[simp] theorem relabel_sharePct (p : PidEntry) : (relabel lower p).sharePct = p.sharePct := by
  unfold relabel
  split_ifs <;> rfl

/-- The null packets are stuffing whatever they are called. -/
theorem relabel_stuffing {p : PidEntry} (h : p.id = nullPid) :
    (relabel lower p).stuffing = true := by
  unfold relabel
  rw [if_neg (not_not_intro h)]

/-- The id that is added: that of a null PID which is not listed. -/
def missing (ids : List ℤ) : List ℤ := if nullPid ∈ ids then [] else [nullPid]

/-- The null packets are added where they are missing, and nothing else is. -/
theorem withNullPid_ids (lower : List Char → List Char) (pids : List PidEntry) :
    (withNullPid lower pids).map PidEntry.id =
      pids.map PidEntry.id ++ missing (pids.map PidEntry.id) := by
  unfold withNullPid missing
  by_cases h : ∃ p ∈ pids, p.id = nullPid
  · rw [if_pos h, if_pos (List.mem_map.mpr h), List.map_map, List.append_nil]
    exact List.map_congr_left fun p _ => relabel_id p
  · rw [if_neg h, if_neg fun hmem => h (List.mem_map.mp hmem), List.map_append]
    rfl

/-- The bit rate of a null PID that is not listed is zero. -/
theorem withNullPid_bitrates :
    (withNullPid lower pids).filterMap PidEntry.bitrateBps =
      pids.filterMap PidEntry.bitrateBps ++ (missing (pids.map PidEntry.id)).map fun _ => 0 := by
  unfold withNullPid missing
  by_cases h : ∃ p ∈ pids, p.id = nullPid
  · rw [if_pos h, if_pos (List.mem_map.mpr h), List.filterMap_map, List.map_nil, List.append_nil]
    exact List.filterMap_congr fun p _ => relabel_bitrateBps p
  · rw [if_neg h, if_neg fun hmem => h (List.mem_map.mp hmem), List.filterMap_append]
    rfl

/-- And they are stuffing in either case. -/
theorem withNullPid_stuffing {p : PidEntry} (hp : p ∈ withNullPid lower pids)
    (h : p.id = nullPid) : p.stuffing = true := by
  unfold withNullPid at hp
  split_ifs at hp with hlisted
  · obtain ⟨q, hq, rfl⟩ := List.mem_map.mp hp
    rw [relabel_id] at h
    exact relabel_stuffing h
  · rcases List.mem_append.mp hp with hp | hp
    · exact absurd ⟨p, hp, h⟩ hlisted
    · rw [List.mem_singleton.mp hp]
      rfl

/-- No share has been computed yet. -/
theorem withNullPid_sharePct (hpids : ∀ p ∈ pids, p.sharePct = none) {p : PidEntry}
    (hp : p ∈ withNullPid lower pids) : p.sharePct = none := by
  unfold withNullPid at hp
  split_ifs at hp
  · obtain ⟨q, hq, rfl⟩ := List.mem_map.mp hp
    rw [relabel_sharePct]
    exact hpids q hq
  · rcases List.mem_append.mp hp with hp | hp
    · exact hpids p hp
    · rw [List.mem_singleton.mp hp]
      rfl

/-! ## Shares -/

/-- A share is not computed where a number does not fit into a float. -/
theorem withShare_eq_none {tsBitrate : ℤ} {p : PidEntry} : withShare share tsBitrate p = none ↔
    ∃ bps, p.bitrateBps = some bps ∧ 0 ≤ bps ∧
      ¬ (fitsFloat bps = true ∧ fitsFloat tsBitrate = true) := by
  unfold withShare sharePct
  rcases p.bitrateBps with _ | bps
  · simp
  · by_cases hpos : 0 ≤ bps
    · by_cases hfit : fitsFloat bps = true ∧ fitsFloat tsBitrate = true
      · simp [hpos, hfit]
      · have hno : (if fitsFloat bps = true ∧ fitsFloat tsBitrate = true then
            some (share bps tsBitrate) else none) = none := if_neg hfit
        exact ⟨fun _ => ⟨bps, rfl, hpos, hfit⟩, fun _ => by simp [hpos, hno]⟩
    · simp [hpos]

/-- A share changes nothing else. -/
theorem withShare_fields {tsBitrate : ℤ} {p q : PidEntry}
    (h : withShare share tsBitrate p = some q) :
    q.id = p.id ∧ q.stuffing = p.stuffing ∧ q.bitrateBps = p.bitrateBps ∧
      (p.sharePct = none →
        (q.sharePct ≠ none ↔ ∃ bps, p.bitrateBps = some bps ∧ 0 ≤ bps)) := by
  unfold withShare at h
  rcases hbps : p.bitrateBps with _ | bps <;> rw [hbps] at h
  · obtain rfl := Option.some.inj h
    exact ⟨rfl, rfl, hbps, fun hnone => by simp [hnone]⟩
  · dsimp only at h
    split_ifs at h with hpos
    · obtain ⟨pct, -, rfl⟩ := Option.map_eq_some_iff.mp h
      exact ⟨rfl, rfl, rfl, fun _ => by simp [hpos]⟩
    · obtain rfl := Option.some.inj h
      exact ⟨rfl, rfl, hbps, fun hnone => by simp [hnone, hpos]⟩

/-- All shares are computed if each of them is. -/
theorem mapM_withShare_ne_none {tsBitrate : ℤ} :
    pids.mapM (withShare share tsBitrate) ≠ none ↔
      ∀ p ∈ pids, withShare share tsBitrate p ≠ none := by
  induction pids with
  | nil => simp
  | cons p pids ih =>
    rw [List.forall_mem_cons, ← ih, List.mapM_cons]
    rcases withShare share tsBitrate p with _ | q
    · simp
    · rcases pids.mapM (withShare share tsBitrate) with _ | qs <;> simp

/-- One by one, in their order. -/
theorem mapM_withShare_forall₂ {tsBitrate : ℤ} (h : pids.mapM (withShare share tsBitrate) =
    some out) : List.Forall₂ (fun p q => withShare share tsBitrate p = some q) pids out := by
  induction pids generalizing out with
  | nil =>
    obtain rfl := Option.some.inj h
    exact List.Forall₂.nil
  | cons p pids ih =>
    rw [List.mapM_cons] at h
    obtain ⟨q, hq, h⟩ := Option.bind_eq_some_iff.mp h
    obtain ⟨qs, hqs, h⟩ := Option.bind_eq_some_iff.mp h
    obtain rfl := Option.some.inj h
    exact List.Forall₂.cons hq (ih hqs)

/-- **Shares exactly where they belong**: on PIDs with a bit rate, if the stream has one. -/
structure Shared (tsBitrate : Option ℤ) (pids out : List PidEntry) : Prop where
  ids : out.map PidEntry.id = pids.map PidEntry.id
  stuffing : ∀ q ∈ out, ∃ p ∈ pids, q.id = p.id ∧ q.stuffing = p.stuffing
  shares : (∀ p ∈ pids, p.sharePct = none) → ∀ q ∈ out, q.sharePct ≠ none ↔
    (∃ t, tsBitrate = some t ∧ 0 < t) ∧ ∃ bps, q.bitrateBps = some bps ∧ 0 ≤ bps

/-- **The shares** are those of the bit rate of the stream. -/
theorem withShares_shared {tsBitrate : Option ℤ} (h : withShares share tsBitrate pids = some out) :
    Shared tsBitrate pids out := by
  unfold withShares at h
  rcases ht : tsBitrate.filter (0 < ·) with _ | t <;> rw [ht] at h
  · obtain rfl := Option.some.inj h
    refine ⟨rfl, fun q hq => ⟨q, hq, rfl, rfl⟩, fun hnone q hq => ?_⟩
    constructor
    · exact fun hne => absurd (hnone q hq) hne
    · rintro ⟨⟨t, rfl, hpos⟩, -⟩
      rw [Option.filter_some_pos (by simpa using hpos)] at ht
      exact absurd ht (by simp)
  · obtain ⟨htb, hpos⟩ := Option.filter_eq_some_iff.mp ht
    have hall := mapM_withShare_forall₂ h
    have hids : ∀ {ps qs : List PidEntry},
        List.Forall₂ (fun p q => withShare share t p = some q) ps qs →
        qs.map PidEntry.id = ps.map PidEntry.id := by
      intro ps qs hf
      induction hf with
      | nil => rfl
      | cons hpq _ ih => rw [List.map_cons, List.map_cons, ih, (withShare_fields hpq).1]
    have hex : ∀ {ps qs : List PidEntry},
        List.Forall₂ (fun p q => withShare share t p = some q) ps qs →
        ∀ q ∈ qs, ∃ p ∈ ps, withShare share t p = some q := by
      intro ps qs hf
      induction hf with
      | nil => exact fun _ hq => absurd hq List.not_mem_nil
      | cons hpq _ ih =>
        intro q hq
        rcases List.mem_cons.mp hq with rfl | hq
        · exact ⟨_, List.mem_cons_self, hpq⟩
        · obtain ⟨p, hp, hpq'⟩ := ih q hq
          exact ⟨p, List.mem_cons_of_mem _ hp, hpq'⟩
    refine ⟨hids hall, fun q hq => ?_, fun hnone q hq => ?_⟩
    · obtain ⟨p, hp, hpq⟩ := hex hall q hq
      exact ⟨p, hp, (withShare_fields hpq).1, (withShare_fields hpq).2.1⟩
    · obtain ⟨p, hp, hpq⟩ := hex hall q hq
      obtain ⟨-, -, hbps, hshare⟩ := withShare_fields hpq
      rw [hshare (hnone p hp), hbps]
      exact ⟨fun h => ⟨⟨t, htb, by simpa using hpos⟩, h⟩, fun h => h.2⟩

/-- They are all computed exactly where the numbers fit. -/
theorem withShares_ne_none (share : ℤ → ℤ → PyFloat) {tsBitrate : Option ℤ} :
    withShares share tsBitrate pids ≠ none ↔
    ∀ t, tsBitrate = some t → 0 < t → ∀ bps ∈ pids.filterMap PidEntry.bitrateBps, 0 ≤ bps →
      fitsFloat bps = true ∧ fitsFloat t = true := by
  unfold withShares
  rcases ht : tsBitrate.filter (0 < ·) with _ | t <;> rw [ht]
  · refine ⟨fun _ t htb hpos => ?_, fun _ => Option.some_ne_none _⟩
    rw [htb, Option.filter_some_pos (by simpa using hpos)] at ht
    exact absurd ht (by simp)
  · obtain ⟨rfl, hpos⟩ := Option.filter_eq_some_iff.mp ht
    dsimp only
    rw [mapM_withShare_ne_none]
    constructor
    · intro h t' ht' _ bps hbps hge
      obtain rfl := Option.some.inj ht'
      obtain ⟨p, hp, hpb⟩ := List.mem_filterMap.mp hbps
      by_contra hfit
      exact h p hp (withShare_eq_none.mpr ⟨bps, hpb, hge, hfit⟩)
    · intro h p hp hnone
      obtain ⟨bps, hpb, hge, hfit⟩ := withShare_eq_none.mp hnone
      exact hfit (h t rfl (by simpa using hpos) bps (List.mem_filterMap.mpr ⟨p, hp, hpb⟩) hge)

end NullPid

/-! ## Reports -/

/-- The ids of the entries with an integer id. -/
def inputIds (xs : List Json) : List ℤ := xs.filterMap entryId

/-- The bit rates that get a share, and that of an added null PID. -/
def sharedBitrates (xs : List Json) : List ℤ :=
  xs.filterMap entryBitrate ++ (missing (inputIds xs)).map fun _ => 0

/-- Every integer of which a share is computed fits into a float. -/
def Shareable (report : List (String × Json)) : Prop :=
  ∀ xs, iterate (get report "pids") = some xs →
    ∀ t, asInt (get (tsNode report) "bitrate") = some t → 0 < t →
      ∀ bps ∈ sharedBitrates xs, 0 ≤ bps → fitsFloat bps = true ∧ fitsFloat t = true

/-- The loops meet nothing that cannot be iterated, and the shares no integer that is too large. -/
structure Walkable (report : List (String × Json)) : Prop where
  services : Iterable (get report "services")
  pids : Iterable (get report "pids")
  nestedPids : ∀ xs, iterate (get report "services") = some xs → ∀ x ∈ xs, ¬ Blocked "pids" x
  nestedServices : ∀ xs, iterate (get report "pids") = some xs → ∀ x ∈ xs, ¬ Blocked "services" x
  shares : Shareable report

section Reports

variable {lower : List Char → List Char} {share : ℤ → ℤ → PyFloat}
  {report : List (String × Json)} {out : PidStructure}

/-- The loop over the services. -/
theorem collect_services {xs : List Json} {services : List ServiceEntry}
    (h : collect serviceEntry xs = some services) :
    services.map ServiceEntry.id = inputIds xs := by
  have hids := collect_filterMap (g := fun s => some s.id) (fun _ _ hy => serviceEntry_id hy) h
  rw [List.filterMap_eq_map'] at hids
  exact hids

/-- The loop over the PIDs. -/
theorem collect_pids {xs : List Json} {pids : List PidEntry}
    (h : collect pidEntry xs = some pids) :
    pids.map PidEntry.id = inputIds xs ∧
      pids.filterMap PidEntry.bitrateBps = xs.filterMap entryBitrate ∧
      ∀ p ∈ pids, p.sharePct = none := by
  refine ⟨?_, collect_filterMap (fun _ _ hy => (pidEntry_fields hy).2.1) h, ?_⟩
  · have hids := collect_filterMap (g := fun p => some p.id)
      (fun _ _ hy => (pidEntry_fields hy).1) h
    rw [List.filterMap_eq_map'] at hids
    exact hids
  · have hshares : pids.filterMap PidEntry.sharePct = xs.filterMap fun _ => none := by
      refine collect_filterMap (fun x y hy => ?_) h
      rcases y with _ | p
      · rfl
      · exact (pidEntry_fields hy).2.2 p rfl
    rw [List.filterMap_none] at hshares
    exact List.filterMap_eq_nil_iff.mp hshares

/-- The steps of the extraction. -/
theorem extract_eq_some : extractPidStructure lower share report = some out ↔
    ∃ xs ys services pids pids',
      iterate (get report "services") = some xs ∧ collect serviceEntry xs = some services ∧
      iterate (get report "pids") = some ys ∧ collect pidEntry ys = some pids ∧
      withShares share (asInt (get (tsNode report) "bitrate")) (withNullPid lower pids) =
        some pids' ∧
      out = ⟨services.insertionSort fun s s' => s.id ≤ s'.id,
        pids'.insertionSort fun p p' => p.id ≤ p'.id, asInt (get (tsNode report) "id"),
        asInt (get (tsNode report) "bitrate")⟩ := by
  unfold extractPidStructure
  simp only [Option.bind_eq_bind, Option.bind_eq_some_iff, Option.some.injEq]
  constructor
  · rintro ⟨services, ⟨xs, hxs, hservices⟩, pids, ⟨ys, hys, hpids⟩, pids', hpids', rfl⟩
    exact ⟨xs, ys, services, pids, pids', hxs, hservices, hys, hpids, hpids', rfl⟩
  · rintro ⟨xs, ys, services, pids, pids', hxs, hservices, hys, hpids, hpids', rfl⟩
    exact ⟨services, ⟨xs, hxs, hservices⟩, pids, ⟨ys, hys, hpids⟩, pids', hpids', rfl⟩

/-- **A report is walked through exactly when it is walkable.** -/
theorem extract_returns_iff (lower : List Char → List Char) (share : ℤ → ℤ → PyFloat) :
    extractPidStructure lower share report ≠ none ↔ Walkable report := by
  have hshares : ∀ {ys : List Json} {pids : List PidEntry},
      collect pidEntry ys = some pids →
      (withNullPid lower pids).filterMap PidEntry.bitrateBps = sharedBitrates ys := by
    intro ys pids hpids
    obtain ⟨hids, hrates, -⟩ := collect_pids hpids
    rw [withNullPid_bitrates, hids, hrates]
    rfl
  -- Either way stage by stage: the two lists, their entries, the shares.
  constructor
  · intro h
    obtain ⟨out, hout⟩ := Option.ne_none_iff_exists'.mp h
    obtain ⟨xs, ys, services, pids, pids', hxs, hservices, hys, hpids, hpids', -⟩ :=
      extract_eq_some.mp hout
    refine ⟨iterate_ne_none.mp (by simp [hxs]), iterate_ne_none.mp (by simp [hys]), ?_, ?_, ?_⟩
    · intro xs' hxs' x hx hblocked
      obtain rfl := Option.some.inj (hxs.symm.trans hxs')
      have hne := collect_ne_none.mp (show collect serviceEntry xs ≠ none by simp [hservices])
      exact hne x hx (serviceEntry_eq_none.mpr hblocked)
    · intro ys' hys' y hy hblocked
      obtain rfl := Option.some.inj (hys.symm.trans hys')
      have hne := collect_ne_none.mp (show collect pidEntry ys ≠ none by simp [hpids])
      exact hne y hy (pidEntry_eq_none.mpr hblocked)
    · intro ys' hys'
      obtain rfl := Option.some.inj (hys.symm.trans hys')
      rw [← hshares hpids]
      exact (withShares_ne_none share).mp (by simp [hpids'])
  · intro h
    obtain ⟨xs, hxs⟩ := Option.ne_none_iff_exists'.mp (iterate_ne_none.mpr h.services)
    obtain ⟨ys, hys⟩ := Option.ne_none_iff_exists'.mp (iterate_ne_none.mpr h.pids)
    obtain ⟨services, hservices⟩ := Option.ne_none_iff_exists'.mp (collect_ne_none.mpr
      fun x hx hnone => h.nestedPids xs hxs x hx (serviceEntry_eq_none.mp hnone))
    obtain ⟨pids, hpids⟩ := Option.ne_none_iff_exists'.mp (collect_ne_none.mpr
      fun y hy hnone => h.nestedServices ys hys y hy (pidEntry_eq_none.mp hnone))
    have hrates := h.shares ys hys
    rw [← hshares hpids] at hrates
    obtain ⟨pids', hpids'⟩ := Option.ne_none_iff_exists'.mp
      ((withShares_ne_none share).mpr hrates)
    have hout := extract_eq_some.mpr
      ⟨xs, ys, services, pids, pids', hxs, hservices, hys, hpids, hpids', rfl⟩
    rw [hout]
    exact Option.some_ne_none _

/-! ## Files -/

/-- The bytes of a file are UTF-8 that `json.loads` accepts or rejects with a `JSONDecodeError`,
and a report in it can be walked through. -/
def Harmless (loads : String → Loaded) (file : Option ByteArray) : Prop :=
  ∀ bytes, file = some bytes → ∃ text, String.fromUTF8? bytes = some text ∧
    loads text ≠ .otherError ∧ ∀ report xs, loads text = .value (.obj report) →
      get report "pids" = .arr xs → Walkable report

/-- **A file is read without an exception exactly when it is harmless.** -/
theorem load_returns_iff (lower : List Char → List Char) (share : ℤ → ℤ → PyFloat)
    (loads : String → Loaded) (file : Option ByteArray) :
    loadPidStructure lower share loads file ≠ none ↔ Harmless loads file := by
  unfold loadPidStructure Harmless
  rcases file with _ | bytes
  · simp
  rcases htext : String.fromUTF8? bytes with _ | text
  · simp [htext]
  -- There is one content, and it decodes to `text`.
  have hone : ∀ p : String → Prop,
      (∀ bytes', some bytes = some bytes' → ∃ text', String.fromUTF8? bytes' = some text' ∧
        p text') ↔ p text := by
    intro p
    constructor
    · intro h
      obtain ⟨text', htext', hp⟩ := h bytes rfl
      rw [htext] at htext'
      obtain rfl := Option.some.inj htext'
      exact hp
    · rintro hp bytes' hb
      obtain rfl := Option.some.inj hb
      exact ⟨text, htext, hp⟩
  rw [hone]
  dsimp only
  rw [htext]
  dsimp only
  rcases hload : loads text with v | _ | _
  · cases v with
    | obj report =>
      dsimp only
      rcases hpids : get report "pids" with _ | _ | _ | _ | _ | xs | _
      case arr =>
        -- Only a report with a list of PIDs is walked through.
        dsimp only
        rw [Ne, Option.map_eq_none_iff, ← Ne, extract_returns_iff]
        constructor
        · intro h
          refine ⟨by simp, fun report' xs' hreport _ => ?_⟩
          obtain rfl := Json.obj.inj (Loaded.value.inj hreport)
          exact h
        · exact fun h => h.2 report xs rfl hpids
      all_goals
        refine ⟨fun _ => ⟨by simp, fun report' xs' hreport hxs => ?_⟩, fun _ => by simp⟩
        obtain rfl := Json.obj.inj (Loaded.value.inj hreport)
        rw [hpids] at hxs
        exact absurd hxs (by simp)
    | _ => simp
  · simp
  · simp

/-! ## The map -/

/-- Services, PIDs and the nested members of their entries are lists. -/
structure Lists (report : List (String × Json)) (services pids : List Json) : Prop where
  servicesList : get report "services" = .arr services
  pidsList : get report "pids" = .arr pids
  nestedPids : ∀ raw, Json.obj raw ∈ services → ∃ xs, get raw "pids" = .arr xs
  nestedServices : ∀ raw, Json.obj raw ∈ pids → ∃ xs, get raw "services" = .arr xs

/-- The map has every id of the input, and a null PID once if the input has none; both lists are
sorted, a null PID is marked, and shares are where they belong. -/
structure MapsAll (report : List (String × Json)) (services pids : List Json)
    (out : PidStructure) : Prop where
  servicesSorted : out.services.Pairwise fun s s' => s.id ≤ s'.id
  pidsSorted : out.pids.Pairwise fun p p' => p.id ≤ p'.id
  serviceIds : (out.services.map ServiceEntry.id).Perm (inputIds services)
  pidIds : (out.pids.map PidEntry.id).Perm (inputIds pids ++ missing (inputIds pids))
  stuffing : ∀ p ∈ out.pids, p.id = nullPid → p.stuffing = true
  shares : ∀ p ∈ out.pids, p.sharePct ≠ none ↔
    (∃ t, asInt (get (tsNode report) "bitrate") = some t ∧ 0 < t) ∧
      ∃ bps, p.bitrateBps = some bps ∧ 0 ≤ bps

theorem iterate_arr (xs : List Json) : iterate (.arr xs) = some xs := by
  unfold iterate Json.truthy
  cases xs <;> rfl

theorem iterable_arr (xs : List Json) : Iterable (.arr xs) :=
  iterate_ne_none.mp (by rw [iterate_arr]; exact Option.some_ne_none _)

/-- A report of the usual shape is walked to its end. -/
theorem Lists.walkable {services pids : List Json} (h : Lists report services pids)
    (hshares : Shareable report) : Walkable report := by
  refine ⟨?_, ?_, ?_, ?_, hshares⟩
  · rw [h.servicesList]
    exact iterable_arr services
  · rw [h.pidsList]
    exact iterable_arr pids
  · rintro xs hxs x hx ⟨-, raw, rfl, hblocked⟩
    rw [h.servicesList, iterate_arr] at hxs
    obtain rfl := Option.some.inj hxs
    obtain ⟨ys, hys⟩ := h.nestedPids raw hx
    rw [hys] at hblocked
    exact hblocked (iterable_arr ys)
  · rintro xs hxs x hx ⟨-, raw, rfl, hblocked⟩
    rw [h.pidsList, iterate_arr] at hxs
    obtain rfl := Option.some.inj hxs
    obtain ⟨ys, hys⟩ := h.nestedServices raw hx
    rw [hys] at hblocked
    exact hblocked (iterable_arr ys)

/-- What is extracted from lists maps all of them. -/
theorem Lists.mapsAll {services pids : List Json} (h : Lists report services pids)
    (hout : extractPidStructure lower share report = some out) :
    MapsAll report services pids out := by
  obtain ⟨xs, ys, ss, ps, ps', hxs, hss, hys, hps, hps', rfl⟩ := extract_eq_some.mp hout
  rw [h.servicesList, iterate_arr] at hxs
  rw [h.pidsList, iterate_arr] at hys
  obtain rfl := Option.some.inj hxs
  obtain rfl := Option.some.inj hys
  obtain ⟨hids, -, hfresh⟩ := collect_pids hps
  have hshared := withShares_shared hps'
  have hperm := List.perm_insertionSort (fun p p' : PidEntry => p.id ≤ p'.id) ps'
  have hmem : ∀ p, p ∈ ps'.insertionSort (fun p p' => p.id ≤ p'.id) ↔ p ∈ ps' :=
    fun _ => hperm.mem_iff
  constructor
  · exact List.pairwise_insertionSort _ _
  · exact List.pairwise_insertionSort _ _
  · rw [← collect_services hss]
    exact (List.perm_insertionSort _ ss).map _
  · rw [← hids, ← withNullPid_ids lower, ← hshared.ids]
    exact hperm.map _
  · intro p hp hnull
    obtain ⟨q, hq, hid, hstuff⟩ := hshared.stuffing p ((hmem p).mp hp)
    rw [hstuff]
    exact withNullPid_stuffing hq (hid.symm.trans hnull)
  · intro p hp
    exact hshared.shares (fun q hq => withNullPid_sharePct hfresh hq) p ((hmem p).mp hp)

end Reports

/-- **The map loses nothing, exactly if every share can be computed.** -/
theorem maps_all_iff (lower : List Char → List Char) (share : ℤ → ℤ → PyFloat)
    (report : List (String × Json)) (services pids : List Json)
    (h : Lists report services pids) :
    (∃ out, extractPidStructure lower share report = some out ∧
      MapsAll report services pids out) ↔ Shareable report := by
  constructor
  · rintro ⟨out, hout, -⟩
    exact ((extract_returns_iff lower share).mp (by rw [hout]; exact Option.some_ne_none _)).shares
  · intro hshares
    obtain ⟨out, hout⟩ := Option.ne_none_iff_exists'.mp
      ((extract_returns_iff lower share).mpr (h.walkable hshares))
    exact ⟨out, hout, h.mapsAll hout⟩

/-! ## Two reports and a half -/

/-- One PID with a bit rate, in a stream with one. -/
def reportOf (bps tsBitrate : ℤ) : List (String × Json) :=
  [("ts", .obj [("bitrate", .int tsBitrate)]), ("services", .arr []),
    ("pids", .arr [.obj [("id", .int 256), ("bitrate", .int bps), ("services", .arr [])]])]

/-- The report of the witness has the usual shape. -/
theorem lists_reportOf (bps tsBitrate : ℤ) : Lists (reportOf bps tsBitrate) []
    [.obj [("id", .int 256), ("bitrate", .int bps), ("services", .arr [])]] := by
  refine ⟨rfl, rfl, fun raw hraw => absurd hraw List.not_mem_nil, fun raw hraw => ?_⟩
  obtain rfl := Json.obj.inj (List.mem_singleton.mp hraw)
  exact ⟨[], rfl⟩

theorem sharedBitrates_reportOf (bps : ℤ) :
    sharedBitrates [.obj [("id", .int 256), ("bitrate", .int bps), ("services", .arr [])]] =
      [bps, 0] := rfl

/-- A PID with half of the stream. -/
theorem maps_all_iff_half :
    ∃ out, extractPidStructure id (fun _ _ => .finite 50) (reportOf 500 1000) = some out ∧
      MapsAll (reportOf 500 1000) []
        [.obj [("id", .int 256), ("bitrate", .int 500), ("services", .arr [])]] out := by
  apply (maps_all_iff id _ _ _ _ (lists_reportOf 500 1000)).mpr
  intro xs hxs t ht _ bps hbps _
  obtain rfl : [.obj [("id", .int 256), ("bitrate", .int 500), ("services", .arr [])]] = xs :=
    Option.some.inj hxs
  obtain rfl : 1000 = t := Option.some.inj ht
  rw [sharedBitrates_reportOf] at hbps
  have hcases : bps = 500 ∨ bps = 0 := by simpa using hbps
  rcases hcases with rfl | rfl <;> decide +kernel

/-- **An integer that no float holds keeps the whole map from being built.** -/
theorem huge_bitrate_raises : ¬ ∀ (lower : List Char → List Char) (share : ℤ → ℤ → PyFloat)
    (report : List (String × Json)) (services pids : List Json), Lists report services pids →
    ∃ out, extractPidStructure lower share report = some out ∧
      MapsAll report services pids out := by
  intro h
  obtain ⟨out, hout, -⟩ := h id (fun _ _ => .finite 0) _ _ _ (lists_reportOf (2 ^ 1024) 1000)
  have hshares := ((extract_returns_iff id fun _ _ => .finite 0).mp
    (by rw [hout]; exact Option.some_ne_none _)).shares
  have hfit := (hshares _ rfl 1000 rfl (by decide) (2 ^ 1024)
    (by rw [sharedBitrates_reportOf]; exact List.mem_cons_self) (by positivity)).1
  exact absurd hfit (by decide +kernel)

/-- The beginning of a report, up to the first byte of an `é`. -/
def cutReport : ByteArray :=
  ⟨#[0x7b, 0x22, 0x70, 0x69, 0x64, 0x73, 0x22, 0x3a, 0x5b, 0x7b, 0x22, 0x6e, 0x61, 0x6d, 0x65,
    0x22, 0x3a, 0x22, 0xc3]⟩

/-- **A file that ends in the middle of a character raises.** -/
theorem cut_character_raises : ¬ ∀ (lower : List Char → List Char) (share : ℤ → ℤ → PyFloat)
    (loads : String → Loaded) (file : Option ByteArray),
    loadPidStructure lower share loads file ≠ none := by
  intro h
  have hnone : String.fromUTF8? cutReport = none := by decide +kernel
  have hload := h id (fun _ _ => .finite 0) (fun _ => .decodeError) (some cutReport)
  unfold loadPidStructure at hload
  dsimp only at hload
  rw [hnone] at hload
  exact hload rfl

end Etr290
