/-
# What the API lists

The requests of `ingest_farm/api/main.py` that read rows, over the tables of `ApiTables` and the
statistics of `ingest_farm/common/events.py`, which expire.  A listing takes the statistics of
all live channels in one call, and rows in the order of their creation.

* `Like`: the patterns of `LIKE`;
* `Statistics`: the keys of the statistics with their expiry;
* `listChannels`, `getChannel`, `listAssets`, `getAsset`: the requests.

A listing says what the single reads say (`listing_agrees`), nothing in it is older than ten
seconds (`statistics_are_recent`), and a search finds what contains its text
(`search_is_complete`).
-/
import IngestFarm.ApiTables
import IngestFarm.Store

/-! ## Patterns -/

namespace Like

/-- What a character of a pattern stands for. -/
inductive Token where
  | any
  | one
  | char (c : Char)
  deriving DecidableEq

/-- The default escape character, a backslash. -/
def escape : Char := Char.ofNat 92

/-- The tokens of a pattern; `escaped` says that the last character was the escape. -/
def tokens : Bool → List Char → List Token
  | _, [] => []
  | true, c :: cs => .char c :: tokens false cs
  | false, c :: cs =>
    if c = '%' then .any :: tokens false cs
    else if c = '_' then .one :: tokens false cs
    else if c = escape then tokens true cs
    else .char c :: tokens false cs

/-- `text LIKE pattern` on the tokens of a pattern: `%` is any text and `_` one character. -/
def matches' : List Token → List Char → Bool
  | [], s => s.isEmpty
  | .any :: ts, s => s.tails.any fun t => matches' ts t
  | .one :: _, [] => false
  | .one :: ts, _ :: s => matches' ts s
  | .char _ :: _, [] => false
  | .char c :: ts, d :: s => c = d && matches' ts s

/-- `text ILIKE '%q%'`, with the lower case of the collation. -/
def contains (lower : Char → Char) (q text : List Char) : Bool :=
  matches' (tokens false ('%' :: q.map lower ++ ['%'])) (text.map lower)

/-- A text without the characters of patterns. -/
def Plain (q : List Char) : Prop := '%' ∉ q ∧ '_' ∉ q ∧ escape ∉ q

section Patterns

variable {ts : List Token} {q s : List Char}

/-- `%` takes any beginning. -/
theorem matches_any :
    matches' (.any :: ts) s = true ↔ ∃ a b, s = a ++ b ∧ matches' ts b = true := by
  rw [matches', List.any_eq_true]
  constructor
  · rintro ⟨b, hb, hmatch⟩
    obtain ⟨a, rfl⟩ := (List.mem_tails b s).mp hb
    exact ⟨a, b, rfl, hmatch⟩
  · rintro ⟨a, b, rfl, hmatch⟩
    exact ⟨b, (List.mem_tails b (a ++ b)).mpr ⟨a, rfl⟩, hmatch⟩

/-- A pattern that ends in `%` may leave a rest. -/
theorem matches_chars : matches' (q.map .char ++ ts) s = true ↔
    ∃ rest, s = q ++ rest ∧ matches' ts rest = true := by
  induction q generalizing s with
  | nil => simp
  | cons c q ih =>
    cases s with
    | nil => simp [matches']
    | cons d s =>
      rw [List.map_cons, List.cons_append, matches', Bool.and_eq_true, decide_eq_true_eq, ih]
      constructor
      · rintro ⟨rfl, rest, rfl, hrest⟩
        exact ⟨rest, rfl, hrest⟩
      · rintro ⟨rest, heq, hrest⟩
        obtain ⟨rfl, rfl⟩ := List.cons.inj heq
        exact ⟨rfl, rest, rfl, hrest⟩

/-- And everything at the end. -/
theorem matches_all (s : List Char) : matches' [.any] s = true := by
  rw [matches_any]
  exact ⟨s, [], (List.append_nil s).symm, rfl⟩

/-- A text without pattern characters is its own pattern. -/
theorem tokens_plain (hq : Plain q) (cs : List Char) :
    tokens false (q ++ cs) = q.map .char ++ tokens false cs := by
  induction q with
  | nil => rfl
  | cons c q ih =>
    obtain ⟨hpercent, hunder, hescape⟩ := hq
    rw [List.mem_cons, not_or] at hpercent hunder hescape
    rw [List.cons_append, tokens, if_neg (Ne.symm hpercent.1), if_neg (Ne.symm hunder.1),
      if_neg (Ne.symm hescape.1), ih ⟨hpercent.2, hunder.2, hescape.2⟩]
    rfl

/-- **A search for a plain text** finds exactly the texts that contain it. -/
theorem contains_plain {lower : Char → Char} {text : List Char} (hq : Plain (q.map lower)) :
    contains lower q text = true ↔ q.map lower <:+: text.map lower := by
  have htokens : tokens false ('%' :: q.map lower ++ ['%']) =
      .any :: ((q.map lower).map .char ++ [.any]) := by
    rw [List.cons_append, tokens, if_pos rfl, tokens_plain hq]
    rfl
  unfold contains
  rw [htokens, matches_any]
  constructor
  · rintro ⟨a, b, hab, hmatch⟩
    obtain ⟨rest, rfl, _⟩ := matches_chars.mp hmatch
    exact ⟨a, rest, by rw [hab, List.append_assoc]⟩
  · rintro ⟨a, rest, hab⟩
    refine ⟨a, q.map lower ++ rest, by rw [← hab, List.append_assoc], ?_⟩
    exact matches_chars.mpr ⟨rest, rfl, matches_all rest⟩

/-- Without the escape each character of a pattern matches itself. -/
theorem matches_self (hq : escape ∉ q) {cs rest : List Char}
    (hrest : matches' (tokens false cs) rest = true) :
    matches' (tokens false (q ++ cs)) (q ++ rest) = true := by
  induction q with
  | nil => exact hrest
  | cons c q ih =>
    rw [List.mem_cons, not_or] at hq
    have hmatch := ih hq.2
    rw [List.cons_append, tokens]
    split_ifs with hpercent hunder hescape
    · -- A percent sign of the text is a wildcard and takes itself.
      exact matches_any.mpr ⟨[c], q ++ rest, rfl, hmatch⟩
    · exact hmatch
    · exact absurd hescape.symm hq.1
    · show (decide (c = c) && matches' (tokens false (q ++ cs)) (q ++ rest)) = true
      rw [hmatch]
      simp

/-- **A search without backslash** finds every text that contains it. -/
theorem contains_of_occurs {lower : Char → Char} {text : List Char} (hq : escape ∉ q.map lower)
    (h : q.map lower <:+: text.map lower) : contains lower q text = true := by
  obtain ⟨a, rest, hab⟩ := h
  unfold contains
  rw [List.cons_append, tokens, if_pos rfl, matches_any]
  refine ⟨a, q.map lower ++ rest, by rw [← hab, List.append_assoc], ?_⟩
  exact matches_self hq (matches_all rest)

end Patterns

end Like

namespace ApiTables

open Serving (HttpError present)

/-! ## Order -/

/-- `ORDER BY created_at DESC`: the newest row comes first. -/
def newestFirst {α : Type} (createdAt : α → ℕ) (rows : List α) : List α :=
  rows.insertionSort fun e e' => createdAt e' ≤ createdAt e

section Order

variable {α : Type} {createdAt : α → ℕ} {rows : List α}

/-- Sorting loses no row. -/
theorem newestFirst_perm : (newestFirst createdAt rows).Perm rows :=
  List.perm_insertionSort _ _

/-- The newest row comes first. -/
theorem newestFirst_pairwise :
    (newestFirst createdAt rows).Pairwise fun e e' => createdAt e' ≤ createdAt e := by
  have htotal : Std.Total fun e e' : α => createdAt e' ≤ createdAt e :=
    ⟨fun e e' => Nat.le_total _ _⟩
  have htrans : IsTrans α fun e e' => createdAt e' ≤ createdAt e := ⟨fun _ _ _ h h' => h'.trans h⟩
  exact List.pairwise_insertionSort _ _

/-- `LIMIT` cuts off only what comes after everything it leaves. -/
theorem mem_take_or_full {R : α → α → Prop} {x : α} {n : ℕ} (h : rows.Pairwise R)
    (hx : x ∈ rows) : x ∈ rows.take n ∨ (rows.take n).length = n ∧ ∀ y ∈ rows.take n, R y x := by
  have hsplit : rows.take n ++ rows.drop n = rows := List.take_append_drop n rows
  have hmem : x ∈ rows.take n ++ rows.drop n := by rwa [hsplit]
  rw [List.mem_append] at hmem
  cases hmem with
  | inl htake => exact Or.inl htake
  | inr hdrop =>
    right
    constructor
    · have hpos : 0 < (rows.drop n).length := List.length_pos_of_mem hdrop
      rw [List.length_drop] at hpos
      rw [List.length_take]
      omega
    · intro y hy
      rw [← hsplit, List.pairwise_append] at h
      exact h.2.2 y hy x hdrop

end Order

/-! ## Statistics -/

/-- `_decode_stats`: only an object counts. -/
def decodeStats : Raw → Option (List (String × Json))
  | .json (.obj fields) => some fields
  | _ => none

/-- A key with its expiry: what was set, and when. -/
structure Stored where
  value : Raw
  setAt : ℕ

/-- The keys `ingest:channel:…:stats` and the clock of the server, in seconds. -/
structure Statistics where
  now : ℕ
  keys : Dict ℕ Stored

/-- `ttl_sec`: statistics that are not renewed for so long are gone. -/
def ttlSec : ℕ := 10

namespace Statistics

/-- `GET`: an expired key is gone. -/
def get (st : Statistics) (id : ℕ) : Option Raw :=
  (st.keys.lookup id).bind fun e => if st.now < e.setAt + ttlSec then some e.value else none

/-- `get_channel_stats`: the statistics of one channel by a GET of its own. -/
def getChannelStats (st : Statistics) (id : ℕ) : Option (List (String × Json)) :=
  (st.get id).bind decodeStats

/-- `get_channel_stats_many`: one `MGET`, decoded under the ids. -/
def getChannelStatsMany (st : Statistics) (ids : List ℕ) :
    Dict ℕ (Option (List (String × Json))) :=
  if ids = [] then ∅
  else (ids.zip (ids.map st.get)).foldl
    (fun d e => Dict.set e.1 (e.2.bind decodeStats) d) ∅

/-- What happens to the keys: the worker sets or deletes one, or time passes. -/
inductive Op where
  | setChannelStats (id : ℕ) (stats : List (String × Json))
  | clearChannelStats (id : ℕ)
  | pass (seconds : ℕ)

/-- What an operation leaves in Redis. -/
def op (st : Statistics) : Op → Statistics
  | .setChannelStats id stats =>
    { st with keys := Dict.set id ⟨.json (.obj stats), st.now⟩ st.keys }
  | .clearChannelStats id => { st with keys := st.keys.erase id }
  | .pass seconds => { st with now := st.now + seconds }

/-- The keys after a sequence of operations. -/
def after (st : Statistics) (ops : List Op) : Statistics := ops.foldl op st

/-- The seconds that pass in a sequence of operations. -/
def elapsed : List Op → ℕ
  | [] => 0
  | .pass seconds :: ops => seconds + elapsed ops
  | .setChannelStats _ _ :: ops => elapsed ops
  | .clearChannelStats _ :: ops => elapsed ops

/-- The key of a channel is neither set nor deleted. -/
def Untouched (id : ℕ) (ops : List Op) : Prop :=
  .clearChannelStats id ∉ ops ∧ ∀ stats, .setChannelStats id stats ∉ ops

/-- The statistics were set last, less than `ttlSec` ago. -/
def Recent (id : ℕ) (stats : List (String × Json)) (ops : List Op) : Prop :=
  ∃ before later, ops = before ++ .setChannelStats id stats :: later ∧ Untouched id later ∧
    elapsed later < ttlSec

section Expiry

variable {st : Statistics} {id : ℕ} {ops : List Op}

@[simp] theorem elapsed_append (ops ops' : List Op) :
    elapsed (ops ++ ops') = elapsed ops + elapsed ops' := by
  induction ops with
  | nil => simp [elapsed]
  | cons o ops ih =>
    rw [List.cons_append]
    cases o with
    | pass seconds =>
      rw [elapsed, elapsed, ih]
      omega
    | setChannelStats i stats => rw [elapsed, elapsed, ih]
    | clearChannelStats i => rw [elapsed, elapsed, ih]

/-- The last operation comes last. -/
theorem after_append (st : Statistics) (ops : List Op) (o : Op) :
    st.after (ops ++ [o]) = (st.after ops).op o := by
  rw [after, List.foldl_append]
  rfl

/-- The clock after a sequence. -/
theorem now_after (st : Statistics) (ops : List Op) :
    (st.after ops).now = st.now + elapsed ops := by
  induction ops using List.reverseRecOn with
  | nil => rfl
  | append_singleton ops o ih =>
    rw [after_append, elapsed_append]
    cases o with
    | pass seconds =>
      show (st.after ops).now + seconds = st.now + (elapsed ops + (seconds + 0))
      omega
    | setChannelStats i stats => exact ih
    | clearChannelStats i => exact ih

/-- A key that neither part touches. -/
theorem Untouched.append {ops' : List Op} (h : Untouched id ops) (h' : Untouched id ops') :
    Untouched id (ops ++ ops') := by
  constructor
  · rw [List.mem_append, not_or]
    exact ⟨h.1, h'.1⟩
  · intro stats
    rw [List.mem_append, not_or]
    exact ⟨h.2 stats, h'.2 stats⟩

/-- And back. -/
theorem Untouched.of_append {ops' : List Op} (h : Untouched id (ops ++ ops')) :
    Untouched id ops ∧ Untouched id ops' := by
  obtain ⟨hclear, hset⟩ := h
  rw [List.mem_append, not_or] at hclear
  constructor
  · exact ⟨hclear.1, fun stats hmem => hset stats (List.mem_append_left _ hmem)⟩
  · exact ⟨hclear.2, fun stats hmem => hset stats (List.mem_append_right _ hmem)⟩

/-- The entry was set by the operations and is untouched since. -/
def SetBy (now id : ℕ) (e : Stored) (ops : List Op) : Prop :=
  ∃ before stats later, ops = before ++ .setChannelStats id stats :: later ∧
    Untouched id later ∧ e = ⟨.json (.obj stats), now + elapsed before⟩

variable {now : ℕ} {e : Stored} {o : Op}

/-- Where the last operation stands in a split sequence. -/
theorem append_eq_split {before later : List Op} {x : Op}
    (h : ops ++ [o] = before ++ x :: later) :
    (later = [] ∧ o = x ∧ ops = before) ∨
      ∃ rest, later = rest ++ [o] ∧ ops = before ++ x :: rest := by
  rcases List.eq_nil_or_concat' later with hnil | ⟨rest, y, hrest⟩
  · subst hnil
    obtain ⟨hops, ho⟩ := List.append_inj' h rfl
    exact Or.inl ⟨rfl, (List.cons.inj ho).1, hops⟩
  · rw [hrest, ← List.cons_append, ← List.append_assoc] at h
    obtain ⟨hops, ho⟩ := List.append_inj' h rfl
    rw [(List.cons.inj ho).1]
    exact Or.inr ⟨rest, hrest, hops⟩

/-- What was set last is what is there. -/
theorem setBy_set (stats : List (String × Json)) :
    SetBy now id e (ops ++ [.setChannelStats id stats]) ↔
      e = ⟨.json (.obj stats), now + elapsed ops⟩ := by
  constructor
  · rintro ⟨before, stats', later, heq, hlater, he⟩
    rcases append_eq_split heq with ⟨_, ho, hops⟩ | ⟨rest, hrest, _⟩
    · obtain ⟨_, rfl⟩ := Op.setChannelStats.inj ho
      rw [he, hops]
    · rw [hrest] at hlater
      exact absurd (List.mem_append_right rest List.mem_cons_self) (hlater.2 stats)
  · intro he
    exact ⟨ops, stats, [], rfl, ⟨List.not_mem_nil, fun _ => List.not_mem_nil⟩, he⟩

/-- After a clear there is nothing. -/
theorem setBy_clear : ¬ SetBy now id e (ops ++ [.clearChannelStats id]) := by
  rintro ⟨before, stats, later, heq, hlater, _⟩
  rcases append_eq_split heq with ⟨_, ho, _⟩ | ⟨rest, hrest, _⟩
  · cases ho
  · rw [hrest] at hlater
    exact hlater.1 (List.mem_append_right rest List.mem_cons_self)

/-- Another key's operation changes nothing. -/
theorem setBy_append (ho : Untouched id [o]) :
    SetBy now id e (ops ++ [o]) ↔ SetBy now id e ops := by
  constructor
  · rintro ⟨before, stats, later, heq, hlater, he⟩
    rcases append_eq_split heq with ⟨_, hset, _⟩ | ⟨rest, hrest, hops⟩
    · rw [hset] at ho
      exact absurd List.mem_cons_self (ho.2 stats)
    · rw [hrest] at hlater
      exact ⟨before, stats, rest, hops, hlater.of_append.1, he⟩
  · rintro ⟨before, stats, later, rfl, hlater, he⟩
    exact ⟨before, stats, later ++ [o], by simp, hlater.append ho, he⟩

/-- The entry of a key is what was set last. -/
theorem lookup_after : (after ⟨now, ∅⟩ ops).keys.lookup id = some e ↔ SetBy now id e ops := by
  induction ops using List.reverseRecOn with
  | nil =>
    constructor
    · intro h
      cases h
    · rintro ⟨before, stats, later, heq, _⟩
      simp at heq
  | append_singleton ops o ih =>
    rw [after_append]
    cases o with
    | pass seconds =>
      rw [setBy_append ⟨by simp, by simp⟩, ← ih]
      rfl
    | setChannelStats i stats =>
      show (Dict.set i _ (after ⟨now, ∅⟩ ops).keys).lookup id = some e ↔ _
      rw [Dict.lookup_set]
      by_cases hi : id = i
      · subst hi
        rw [if_pos rfl, setBy_set, now_after, Option.some.injEq]
        exact eq_comm
      · have hother : Untouched id [.setChannelStats i stats] := by
          constructor
          · simp
          · intro stats' hmem
            exact hi (Op.setChannelStats.inj (List.mem_singleton.mp hmem)).1
        rw [if_neg hi, setBy_append hother, ih]
    | clearChannelStats i =>
      show ((after ⟨now, ∅⟩ ops).keys.erase i).lookup id = some e ↔ _
      rw [Dict.lookup_erase]
      by_cases hi : id = i
      · subst hi
        simp [setBy_clear]
      · have hother : Untouched id [.clearChannelStats i] := by
          constructor
          · intro hmem
            exact hi (Op.clearChannelStats.inj (List.mem_singleton.mp hmem))
          · simp
        rw [if_neg hi, setBy_append hother, ih]

/-- **The statistics of a channel** are what was set last, while it is recent. -/
theorem getChannelStats_after {stats : List (String × Json)} :
    (after ⟨now, ∅⟩ ops).getChannelStats id = some stats ↔ Recent id stats ops := by
  unfold getChannelStats get
  constructor
  · intro h
    obtain ⟨value, hvalue, hdecode⟩ := Option.bind_eq_some_iff.mp h
    obtain ⟨e, he, hif⟩ := Option.bind_eq_some_iff.mp hvalue
    obtain ⟨before, stats', later, hops, hlater, rfl⟩ := lookup_after.mp he
    split_ifs at hif with hnow
    cases hif
    cases hdecode
    refine ⟨before, later, hops, hlater, ?_⟩
    rw [now_after, hops, elapsed_append, elapsed] at hnow
    dsimp only at hnow
    omega
  · rintro ⟨before, later, hops, hlater, htime⟩
    have he : (after ⟨now, ∅⟩ ops).keys.lookup id =
        some ⟨.json (.obj stats), now + elapsed before⟩ :=
      lookup_after.mpr ⟨before, stats, later, hops, hlater, rfl⟩
    have hnow : (after ⟨now, ∅⟩ ops).now < now + elapsed before + ttlSec := by
      rw [now_after, hops, elapsed_append, elapsed]
      dsimp only
      omega
    rw [he, Option.bind_some, if_pos hnow]
    rfl

end Expiry

end Statistics

/-! ## Channels -/

/-- `_LIVE_CHANNEL_STATUSES`: the statuses in which a listing looks for statistics. -/
def liveChannelStatuses : List ChannelStatus :=
  [.connected, .recording, .connecting, .starting, .stopping, .disconnecting]

/-- `ChannelResponse`, with the statistics and the URL of the thumbnail. -/
structure ChannelResponse where
  id : ℕ
  row : ChannelRow
  thumbnail : Option String
  stats : Option (List (String × Json))

section Channels

variable (url : ℕ → String)

/-- The preview of a child that has fallen back. -/
def isFakesink : Json → Bool
  | .str s => s = "fakesink"
  | _ => false

/-- `_channel_urls`; `url id` is the text of the id in a URL. -/
def channelUrls (id : ℕ) (row : ChannelRow) (stats : Option (List (String × Json))) :
    Option String :=
  let preview := Json.field? "preview" (stats.getD [])
  if row.source.protocol = .srt ∧ preview.any isFakesink = true then none
  else if row.status ∈ liveChannelStatuses then some ("/api/channels/" ++ url id ++ "/thumbnail")
  else none

/-- `_channel_response` with the statistics that it has looked up. -/
def channelResponse (id : ℕ) (row : ChannelRow)
    (lookup : ℕ → Option (List (String × Json))) : ChannelResponse :=
  let stats := if row.status ∈ liveChannelStatuses then lookup id else none
  ⟨id, row, channelUrls url id row stats, stats⟩

/-- The rows in the order of the listing. -/
def newestChannels (t : Tables) : List (Sigma fun _ : ℕ => ChannelRow) :=
  newestFirst (fun e => e.2.createdAt) t.channels.entries

/-- `list_channels`; `none` stands for a Redis that is away. -/
def listChannels (t : Tables) (redis : Option Statistics) : List ChannelResponse :=
  let channels := newestChannels t
  let liveIds := (channels.filter fun e => e.2.status ∈ liveChannelStatuses).map Sigma.fst
  let cache := match redis with
    | some st => st.getChannelStatsMany liveIds
    | none => ∅
  channels.map fun e => channelResponse url e.1 e.2 fun id => (cache.lookup id).join

/-- `get_channel`: the row with the statistics of a GET of its own. -/
def getChannel (t : Tables) (redis : Option Statistics) (id : ℕ) :
    Except HttpError ChannelResponse :=
  match t.channels.lookup id with
  | none => .error ⟨404, "Channel not found"⟩
  | some row =>
    .ok (channelResponse url id row fun id => redis.bind fun st => st.getChannelStats id)

end Channels

section Proofs

variable {url : ℕ → String} {t : Tables} {redis : Option Statistics}

/-- **One call for many** gives what the single calls give. -/
theorem lookup_getChannelStatsMany (st : Statistics) (ids : List ℕ) (id : ℕ) :
    (st.getChannelStatsMany ids).lookup id =
      if id ∈ ids then some (st.getChannelStats id) else none := by
  have key : ∀ (ids : List ℕ) (d : Dict ℕ (Option (List (String × Json)))),
      ((ids.zip (ids.map st.get)).foldl
        (fun d e => Dict.set e.1 (e.2.bind decodeStats) d) d).lookup id =
        if id ∈ ids then some (st.getChannelStats id) else d.lookup id := by
    intro ids
    induction ids with
    | nil => simp
    | cons i ids ih =>
      intro d
      rw [List.map_cons, List.zip_cons_cons, List.foldl_cons, ih, Dict.lookup_set]
      by_cases hid : id ∈ ids
      · rw [if_pos hid, if_pos (List.mem_cons_of_mem i hid)]
      · rw [if_neg hid]
        by_cases hi : id = i
        · subst hi
          rw [if_pos rfl, if_pos List.mem_cons_self]
          rfl
        · rw [if_neg hi, if_neg (by simp [hi, hid])]
  unfold Statistics.getChannelStatsMany
  by_cases hids : ids = []
  · rw [if_pos hids, hids, if_neg List.not_mem_nil]
    rfl
  · rw [if_neg hids, key]
    simp

/-- **A listing says what the single reads say**, whether Redis is there or not: each channel
once, the newest first. -/
theorem listing_agrees (url : ℕ → String) (t : Tables) (redis : Option Statistics) :
    (∃ order : List ℕ, order.Perm t.channels.keys ∧
      (listChannels url t redis).map Except.ok = order.map (getChannel url t redis)) ∧
      (listChannels url t redis).Pairwise fun c c' => c'.row.createdAt ≤ c.row.createdAt := by
  have hperm : (newestChannels t).Perm t.channels.entries := newestFirst_perm
  refine ⟨⟨(newestChannels t).map Sigma.fst, hperm.map Sigma.fst, ?_⟩, ?_⟩
  · unfold listChannels
    rw [List.map_map, List.map_map]
    apply List.map_congr_left
    intro e he
    have hrow : t.channels.lookup e.1 = some e.2 := Dict.mem_entries_iff.mp (hperm.mem_iff.mp he)
    show Except.ok _ = getChannel url t redis e.1
    unfold getChannel channelResponse
    rw [hrow]
    by_cases hlive : e.2.status ∈ liveChannelStatuses
    · cases redis with
      | none => rfl
      | some st =>
        have hids : e.1 ∈ ((newestChannels t).filter fun e =>
            e.2.status ∈ liveChannelStatuses).map Sigma.fst :=
          List.mem_map.mpr ⟨e, List.mem_filter.mpr ⟨he, decide_eq_true hlive⟩, rfl⟩
        dsimp only
        rw [lookup_getChannelStatsMany, if_pos hids]
        rfl
    · simp only [if_neg hlive]
  · unfold listChannels
    rw [List.pairwise_map]
    exact newestFirst_pairwise

/-- **A listing is exact about the statistics**: a channel in it has the statistics that were set
last, if it is live and they are less than ten seconds old, and otherwise none. -/
theorem statistics_are_recent (url : ℕ → String) (t : Tables) (now : ℕ)
    (ops : List Statistics.Op) (c : ChannelResponse)
    (hc : c ∈ listChannels url t (some (Statistics.after ⟨now, ∅⟩ ops)))
    (stats : List (String × Json)) :
    c.stats = some stats ↔
      c.row.status ∈ liveChannelStatuses ∧ Statistics.Recent c.id stats ops := by
  unfold listChannels at hc
  obtain ⟨e, he, rfl⟩ := List.mem_map.mp hc
  show (if e.2.status ∈ liveChannelStatuses then _ else none) = some stats ↔
    e.2.status ∈ liveChannelStatuses ∧ Statistics.Recent e.1 stats ops
  by_cases hlive : e.2.status ∈ liveChannelStatuses
  · have hids : e.1 ∈ ((newestChannels t).filter fun e =>
        e.2.status ∈ liveChannelStatuses).map Sigma.fst :=
      List.mem_map.mpr ⟨e, List.mem_filter.mpr ⟨he, decide_eq_true hlive⟩, rfl⟩
    dsimp only
    rw [if_pos hlive, lookup_getChannelStatsMany, if_pos hids]
    show (Statistics.after ⟨now, ∅⟩ ops).getChannelStats e.1 = some stats ↔ _
    rw [Statistics.getChannelStats_after]
    exact (and_iff_right hlive).symm
  · rw [if_neg hlive]
    simp [hlive]

/-- The statistics of a live channel are set twice, and those of another one in between. -/
theorem statistics_are_recent_live :
    ∃ c ∈ listChannels toString (oneChannel .recording .recording)
        (some (Statistics.after ⟨0, ∅⟩ [.setChannelStats 0 [("bitrate_bps", .int 5)], .pass 4,
          .setChannelStats 0 [("bitrate_bps", .int 8)], .clearChannelStats 7, .pass 3])),
      c.row.status ∈ liveChannelStatuses ∧ c.stats = some [("bitrate_bps", .int 8)] := by
  obtain ⟨c, hc⟩ : ∃ c, c ∈ listChannels toString (oneChannel .recording .recording)
      (some (Statistics.after ⟨0, ∅⟩ [.setChannelStats 0 [("bitrate_bps", .int 5)], .pass 4,
        .setChannelStats 0 [("bitrate_bps", .int 8)], .clearChannelStats 7, .pass 3])) :=
    ⟨_, List.mem_map.mpr ⟨_, List.mem_singleton.mpr rfl, rfl⟩⟩
  have hid : c.id = 0 ∧ c.row.status = .recording := by
    obtain ⟨e, he, rfl⟩ := List.mem_map.mp hc
    obtain rfl := List.mem_singleton.mp he
    exact ⟨rfl, rfl⟩
  have hlive : c.row.status ∈ liveChannelStatuses := by
    rw [hid.2]
    decide
  refine ⟨c, hc, hlive, ?_⟩
  rw [statistics_are_recent toString _ 0 _ c hc, hid.1]
  exact ⟨hlive, [.setChannelStats 0 [("bitrate_bps", .int 5)], .pass 4],
    [.clearChannelStats 7, .pass 3], rfl, ⟨by simp, by simp⟩, by decide⟩

end Proofs

/-! ## Assets -/

/-- `AssetResponse`; an asset without its recording has no channel. -/
structure AssetResponse where
  id : ℕ
  row : AssetRow
  channelId : Option ℕ
  channelName : String
  master : Bool
  thumbnail : Bool
  proxyPlaylist : Bool

/-- The query of `list_assets`. -/
structure AssetQuery where
  q : List Char
  channelId : Option ℕ
  createdAfter : Option ℕ
  createdBefore : Option ℕ
  limit : ℕ

section Assets

variable (lower : Char → Char) (t : Tables)

/-- `_asset_response`, with whether `_asset_urls` has a master, a thumbnail and a playlist. -/
def assetResponse (id : ℕ) (row : AssetRow) : AssetResponse :=
  let recording := t.recordings.lookup row.recordingId
  let channel := recording.bind fun r => t.channels.lookup r.channelId
  { id, row
    channelId := recording.map RecordingRow.channelId
    channelName := (channel.map ChannelRow.name).getD ""
    master := (present row.paths.masterPath).isSome
    thumbnail := (present row.paths.thumbnailPath).isSome
    proxyPlaylist := (present row.paths.proxyPath).isSome }

/-- The inner joins of `_query_assets`. -/
def joined (row : AssetRow) : Option (RecordingRow × ChannelRow) :=
  (t.recordings.lookup row.recordingId).bind fun r =>
    (t.channels.lookup r.channelId).map fun c => (r, c)

/-- The filters of `_query_assets`. -/
def AssetQuery.accepts (query : AssetQuery) (row : AssetRow) (recording : RecordingRow) : Bool :=
  (query.q = [] || Like.contains lower query.q row.title.toList) &&
    query.channelId.all (fun c => recording.channelId = c) &&
    query.createdAfter.all (fun a => a ≤ row.createdAt) &&
    query.createdBefore.all (fun b => row.createdAt ≤ b)

/-- `list_assets`: the joins, the filters, the order and then the limit, as the database applies
them. -/
def listAssets (query : AssetQuery) : List AssetResponse :=
  let rows := (newestFirst (fun e => e.2.createdAt) t.assets.entries).filter fun e =>
    (joined t e.2).any fun j => query.accepts lower e.2 j.1
  (rows.take query.limit).map fun e => assetResponse t e.1 e.2

/-- `search_assets`: a listing with the text alone and the default limit. -/
def searchAssets (q : List Char) : List AssetResponse :=
  listAssets lower t ⟨q, none, none, none, 100⟩

/-- `get_asset`: a row by its id, without the joins of a listing. -/
def getAsset (id : ℕ) : Except HttpError AssetResponse :=
  match t.assets.lookup id with
  | none => .error ⟨404, "Asset not found"⟩
  | some row => .ok (assetResponse t id row)

/-- **What a query asks for**: the text in the title, the channel and the dates. -/
structure AssetQuery.Wants (query : AssetQuery) (a : AssetResponse) : Prop where
  text : query.q.map lower <:+: a.row.title.toList.map lower
  channel : ∀ c, query.channelId = some c → a.channelId = some c
  after : ∀ d, query.createdAfter = some d → d ≤ a.row.createdAt
  before : ∀ d, query.createdBefore = some d → a.row.createdAt ≤ d

end Assets

section Searching

variable {lower : Char → Char} {t : Tables} {query : AssetQuery} {id : ℕ} {row : AssetRow}

/-- Under the constraints the joins drop no asset. -/
theorem joined_isSome (h : t.Consistent) (hrow : t.assets.lookup id = some row) :
    ∃ j, joined t row = some j ∧ (assetResponse t id row).channelId = some j.1.channelId := by
  obtain ⟨recording, hrec⟩ := Dict.mem_iff_exists_lookup.mp (h.ofRecording id row hrow)
  obtain ⟨channel, hchannel⟩ := Dict.mem_iff_exists_lookup.mp (h.ofChannel _ recording hrec)
  refine ⟨(recording, channel), ?_, ?_⟩
  · rw [joined, hrec, Option.bind_some, hchannel]
    rfl
  · show (t.recordings.lookup row.recordingId).map RecordingRow.channelId = _
    rw [hrec]
    rfl

/-- The filters are what is asked for, but for the text. -/
theorem accepts_iff {a : AssetResponse} {j : RecordingRow × ChannelRow}
    (ha : a.channelId = some j.1.channelId) :
    query.accepts lower a.row j.1 = true ↔
      (query.q = [] ∨ Like.contains lower query.q a.row.title.toList = true) ∧
        (∀ c, query.channelId = some c → a.channelId = some c) ∧
        (∀ d, query.createdAfter = some d → d ≤ a.row.createdAt) ∧
        ∀ d, query.createdBefore = some d → a.row.createdAt ≤ d := by
  unfold AssetQuery.accepts
  rw [ha]
  simp only [Bool.and_eq_true, Bool.or_eq_true, decide_eq_true_eq, Option.all_eq_true,
    Option.some.injEq, and_assoc]

/-- What is asked for passes the filters. -/
theorem accepts_of_wants {a : AssetResponse} {j : RecordingRow × ChannelRow}
    (ha : a.channelId = some j.1.channelId) (hq : Like.escape ∉ query.q.map lower)
    (h : query.Wants lower a) : query.accepts lower a.row j.1 = true :=
  (accepts_iff ha).mpr
    ⟨Or.inr (Like.contains_of_occurs hq h.text), h.channel, h.after, h.before⟩

/-- Without pattern characters nothing else passes. -/
theorem wants_of_accepts {a : AssetResponse} {j : RecordingRow × ChannelRow}
    (ha : a.channelId = some j.1.channelId) (hq : Like.Plain (query.q.map lower))
    (h : query.accepts lower a.row j.1 = true) : query.Wants lower a := by
  obtain ⟨htext, hchannel, hafter, hbefore⟩ := (accepts_iff ha).mp h
  refine ⟨?_, hchannel, hafter, hbefore⟩
  rcases htext with hnil | htext
  · rw [hnil]
    exact List.nil_infix
  · exact (Like.contains_plain hq).mp htext

/-- What is listed is a row with its joins, and was asked for. -/
theorem mem_listAssets {a : AssetResponse} (ha : a ∈ listAssets lower t query) :
    ∃ id row j, t.assets.lookup id = some row ∧ a = assetResponse t id row ∧
      joined t row = some j ∧ query.accepts lower row j.1 = true := by
  obtain ⟨e, he, rfl⟩ := List.mem_map.mp ha
  have hmem := List.mem_of_mem_take he
  rw [List.mem_filter] at hmem
  obtain ⟨j, hj, haccepts⟩ := (Option.any_eq_true _ _).mp hmem.2
  exact ⟨e.1, e.2, j, Dict.mem_entries_iff.mp (newestFirst_perm.mem_iff.mp hmem.1), rfl, hj,
    haccepts⟩

/-- What passes is listed, unless the limit is reached by assets at least as new. -/
theorem listed_or_full (hrow : t.assets.lookup id = some row) {j : RecordingRow × ChannelRow}
    (hj : joined t row = some j) (haccepts : query.accepts lower row j.1 = true) :
    assetResponse t id row ∈ listAssets lower t query ∨
      (listAssets lower t query).length = query.limit ∧
        ∀ a ∈ listAssets lower t query, row.createdAt ≤ a.row.createdAt := by
  unfold listAssets
  have hmem : (⟨id, row⟩ : Sigma fun _ : ℕ => AssetRow) ∈
      (newestFirst (fun e => e.2.createdAt) t.assets.entries).filter fun e =>
        (joined t e.2).any fun j => query.accepts lower e.2 j.1 := by
    rw [List.mem_filter]
    exact ⟨newestFirst_perm.mem_iff.mpr (Dict.mem_entries_iff.mpr hrow),
      (Option.any_eq_true _ _).mpr ⟨j, hj, haccepts⟩⟩
  rcases mem_take_or_full (newestFirst_pairwise.filter _) hmem with htake | ⟨hlength, hnewer⟩
  · exact Or.inl (List.mem_map.mpr ⟨_, htake, rfl⟩)
  · right
    constructor
    · rw [List.length_map]
      exact hlength
    · intro a ha
      obtain ⟨e, he, rfl⟩ := List.mem_map.mp ha
      exact hnewer e he

/-- **A search is complete and exact.**  Without a backslash in the text it lists every asset
that is asked for, unless its limit is reached by assets at least as new; without pattern
characters it lists nothing else; what it lists agrees with the single reads, each asset once
and the newest first. -/
theorem search_is_complete (h : t.Consistent) :
    (Like.escape ∉ query.q.map lower → ∀ id a, getAsset t id = .ok a → query.Wants lower a →
      a ∈ listAssets lower t query ∨ (listAssets lower t query).length = query.limit ∧
        ∀ b ∈ listAssets lower t query, a.row.createdAt ≤ b.row.createdAt) ∧
    (∀ a ∈ listAssets lower t query, getAsset t a.id = .ok a ∧
      (Like.Plain (query.q.map lower) → query.Wants lower a)) ∧
    (listAssets lower t query).length ≤ query.limit ∧
    ((listAssets lower t query).map AssetResponse.id).Nodup ∧
    (listAssets lower t query).Pairwise fun a b => b.row.createdAt ≤ a.row.createdAt := by
  refine ⟨?_, ?_, ?_, ?_, ?_⟩
  · intro hq id a ha hwants
    unfold getAsset at ha
    split at ha
    · cases ha
    · rename_i row hrow
      cases ha
      obtain ⟨j, hj, hchannel⟩ := joined_isSome h hrow
      have haccepts := accepts_of_wants hchannel hq hwants
      exact listed_or_full hrow hj haccepts
  · intro a ha
    obtain ⟨id, row, j, hrow, rfl, hj, haccepts⟩ := mem_listAssets ha
    constructor
    · show getAsset t id = _
      rw [getAsset, hrow]
    · intro hplain
      obtain ⟨j', hj', hchannel⟩ := joined_isSome h hrow
      rw [hj] at hj'
      cases hj'
      exact wants_of_accepts (a := assetResponse t id row) hchannel hplain haccepts
  · unfold listAssets
    rw [List.length_map, List.length_take]
    exact Nat.min_le_left _ _
  · unfold listAssets
    rw [List.map_map]
    have hids : ((newestFirst (fun e => e.2.createdAt) t.assets.entries).map Sigma.fst).Nodup :=
      (newestFirst_perm.map Sigma.fst).nodup_iff.mpr t.assets.nodupKeys
    exact ((List.take_sublist _ _).trans List.filter_sublist |>.map Sigma.fst).nodup hids
  · unfold listAssets
    rw [List.pairwise_map]
    exact (newestFirst_pairwise.filter _).sublist (List.take_sublist _ _)

/-- One asset, and a search for a piece of its title. -/
theorem search_is_complete_news :
    Like.escape ∉ "new".toList.map Char.toLower ∧
    ∃ a, getAsset (oneChannel .idle .completed) 2 = .ok a ∧
      (a ∈ searchAssets Char.toLower (oneChannel .idle .completed) "new".toList ∨
        (searchAssets Char.toLower (oneChannel .idle .completed) "new".toList).length = 100 ∧
          ∀ b ∈ searchAssets Char.toLower (oneChannel .idle .completed) "new".toList,
            a.row.createdAt ≤ b.row.createdAt) := by
  have hq : Like.escape ∉ "new".toList.map Char.toLower := by decide
  refine ⟨hq, _, rfl, ?_⟩
  apply (search_is_complete (consistent_oneChannel .idle .completed)).1 hq 2 _ rfl
  exact ⟨by decide, by simp, by simp, by simp⟩

end Searching

end ApiTables
