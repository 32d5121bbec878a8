-- The two chunk trackers of the upload service (`cmd/upload-service`). One keeps numbers in maps,
-- and the other one their texts in hashes of Redis.
import RecastAi.RedisHashes
import RecastAi.UploadService

open call_programs go_text redis

namespace recast_rules.chunk_trackers

open upload_service

/-! ## The interface -/

inductive TrackerError where
  | hset (e : Failure)
  | expire (e : Failure)
  | redis (e : Failure)
  | parseChunkSize (text : String)
  | parseChunkIdx (text : String)

/-- `chunkTracker`. An index is an `int` that is not negative, and a size any `int64`. -/
inductive TrackerCall where
  | recordChunk (uploadID : String) (chunkIdx : Fin (2 ^ 63)) (size : Int64)
  | chunkCount (uploadID : String)
  | totalSize (uploadID : String)
  | listChunks (uploadID : String)
  | purge (uploadID : String)

inductive Result where
  | recorded (r : Except TrackerError Unit)
  | count (r : Except TrackerError Nat)
  | size (r : Except TrackerError Int)
  | indices (r : Except TrackerError (List Int))
  | purged (r : Except TrackerError Unit)

/-- The results are the same. Lists of indices have no duplicates, and hold the same indices. -/
def Result.Same : Result → Result → Prop
  | .indices (.ok l), .indices (.ok l') => l.Nodup ∧ l'.Nodup ∧ l.Perm l'
  | r, r' => r = r'

/-! ## Texts in hashes -/

namespace redisTracker

abbrev RedisProg := Prog HashCall HashAnswer

def ask (c : HashCall) : RedisProg (HashAnswer c) := Prog.ask c

def key (uploadID : String) : String := "upload:" ++ uploadID ++ ":chunks"

/-- 24 hours. -/
def ttl : Nat := 24 * 60 * 60

def recordChunk (uploadID : String) (chunkIdx : Nat) (size : Int) :
    RedisProg (Except TrackerError Unit) := do
  let set : Except Failure Nat ←
    ask (.hset (key uploadID) (toString chunkIdx) (toString size))
  match set with
  | .error e => pure (.error (.hset e))
  | .ok _ => do
    let expires : Except Failure Bool ← ask (.expire (key uploadID) ttl)
    match expires with
    | .error e => pure (.error (.expire e))
    | .ok _ => pure (.ok ())

def chunkCount (uploadID : String) : RedisProg (Except TrackerError Nat) := do
  let n : Except Failure Nat ← ask (.hlen (key uploadID))
  match n with
  | .error e => pure (.error (.redis e))
  | .ok n => pure (.ok n)

/-- The loop over the values. `strconv.ParseInt` with base 10 and 64 bits reads what `Atoi`
reads. -/
def sumSizes (total : Int) : List String → Except TrackerError Int
  | [] => .ok total
  | v :: vals =>
    match atoi v with
    | none => .error (.parseChunkSize v)
    | some n => sumSizes (wrap64 (total + n)) vals

def totalSize (uploadID : String) : RedisProg (Except TrackerError Int) := do
  let vals : Except Failure (List String) ← ask (.hvals (key uploadID))
  match vals with
  | .error e => pure (.error (.redis e))
  | .ok vals => pure (sumSizes 0 vals)

/-- The loop over the keys. -/
def parseIndices (out : List Int) : List String → Except TrackerError (List Int)
  | [] => .ok out
  | k :: keys =>
    match atoi k with
    | none => .error (.parseChunkIdx k)
    | some n => parseIndices (out ++ [n]) keys

def listChunks (uploadID : String) : RedisProg (Except TrackerError (List Int)) := do
  let keys : Except Failure (List String) ← ask (.hkeys (key uploadID))
  match keys with
  | .error e => pure (.error (.redis e))
  | .ok keys => pure (parseIndices [] keys)

def purge (uploadID : String) : RedisProg (Except TrackerError Unit) := do
  let n : Except Failure Nat ← ask (.del (key uploadID))
  match n with
  | .error e => pure (.error (.redis e))
  | .ok _ => pure (.ok ())

def serve : TrackerCall → RedisProg Result
  | .recordChunk uploadID chunkIdx size => .recorded <$> recordChunk uploadID chunkIdx size.toInt
  | .chunkCount uploadID => .count <$> chunkCount uploadID
  | .totalSize uploadID => .size <$> totalSize uploadID
  | .listChunks uploadID => .indices <$> listChunks uploadID
  | .purge uploadID => .purged <$> purge uploadID

/-- The results of calls that are made one after the other, all of them answered and before
anything expires. -/
inductive Serves : Store Hash → List TrackerCall → List Result → Prop where
  | nil (s : Store Hash) : Serves s [] []
  | cons {s s' : Store Hash} {c : TrackerCall} {calls : List TrackerCall} {r : Result}
      {rs : List Result} (h : Ends hashes Quiet (serve c) s r s') (hrest : Serves s' calls rs) :
      Serves s (c :: calls) (r :: rs)

end redisTracker

/-! ## Numbers in maps -/

/-- `memoryTracker`. -/
structure Memory where
  data : String → Option Chunks

/-- A map that is not there is read as an empty one. -/
def Memory.chunks (t : Memory) (uploadID : String) : Chunks := (t.data uploadID).getD ∅

namespace memoryTracker

def recordChunk (t : Memory) (uploadID : String) (chunkIdx : Nat) (size : Int) : Memory :=
  let m := match t.data uploadID with
    | some m => m
    | none => ∅
  ⟨Function.update t.data uploadID (some (m.insert chunkIdx size))⟩

def chunkCount (t : Memory) (uploadID : String) : Nat := (t.chunks uploadID).keys.length

def totalSize (order : List Nat) (t : Memory) (uploadID : String) : Int :=
  (walkValues order (t.chunks uploadID)).foldl (fun total v => wrap64 (total + v)) 0

def listChunks (order : List Nat) (t : Memory) (uploadID : String) : List Int :=
  (walk order (t.chunks uploadID)).map fun k : Nat => (k : Int)

def purge (t : Memory) (uploadID : String) : Memory := ⟨Function.update t.data uploadID none⟩

/-- `order` is the order in which the map is walked. -/
def serve (order : List Nat) (t : Memory) : TrackerCall → Result × Memory
  | .recordChunk uploadID chunkIdx size =>
    (.recorded (.ok ()), recordChunk t uploadID chunkIdx size.toInt)
  | .chunkCount uploadID => (.count (.ok (chunkCount t uploadID)), t)
  | .totalSize uploadID => (.size (.ok (totalSize order t uploadID)), t)
  | .listChunks uploadID => (.indices (.ok (listChunks order t uploadID)), t)
  | .purge uploadID => (.purged (.ok ()), purge t uploadID)

inductive Serves : Memory → List TrackerCall → List Result → Prop where
  | nil (t : Memory) : Serves t [] []
  | cons {t : Memory} {c : TrackerCall} {calls : List TrackerCall} {rs : List Result}
      (order : List Nat) (hrest : Serves (serve order t c).2 calls rs) :
      Serves t (c :: calls) ((serve order t c).1 :: rs)

end memoryTracker

/-! ## A hash that mirrors a map -/

/-- The hash holds the texts of the indices, and of their sizes. -/
structure Mirrors (h : Hash) (m : Chunks) : Prop where
  fields : h.keys.Perm (m.keys.map toString)
  sizes : ∀ k : Nat, h.lookup (toString k) = (m.lookup k).map toString
  bounded : ∀ (k : Nat) (n : Int), m.lookup k = some n →
    (k : Int) < 2 ^ 63 ∧ -2 ^ 63 ≤ n ∧ n < 2 ^ 63

theorem atoi_index {k : Nat} (h : (k : Int) < 2 ^ 63) : atoi (toString k) = some (k : Int) :=
  atoi_digits Nat.toList_repr h

theorem toString_injective : Function.Injective (toString : Nat → String) := by
  intro k j h
  have hdigits : Nat.toDigits 10 k = Nat.toDigits 10 j :=
    Nat.toList_repr.symm.trans ((congrArg String.toList h).trans Nat.toList_repr)
  have hread := digits_toDigits k
  rw [hdigits, digits_toDigits] at hread
  exact (Option.some.inj hread).symm

section Mirrors

variable {h : Hash} {m : Chunks} {order : List Nat} {keys : List String}

theorem mirrors_empty : Mirrors ∅ ∅ where
  fields := List.Perm.refl _
  sizes k := by rw [AList.lookup_empty, AList.lookup_empty]; rfl
  bounded k n hk := by
    rw [AList.lookup_empty] at hk
    cases hk

theorem Mirrors.insert (hm : Mirrors h m) {k : Nat} {n : Int} (hk : (k : Int) < 2 ^ 63)
    (hmin : -2 ^ 63 ≤ n) (hmax : n < 2 ^ 63) :
    Mirrors (h.insert (toString k) (toString n)) (m.insert k n) where
  fields := by
    rw [AList.keys_insert, AList.keys_insert, List.map_cons, List.map_erase toString_injective]
    exact (hm.fields.erase _).cons _
  sizes j := by
    by_cases hj : j = k
    · rw [hj, AList.lookup_insert, AList.lookup_insert]
      rfl
    · rw [AList.lookup_insert_ne hj, AList.lookup_insert_ne (fun heq => hj (toString_injective heq))]
      exact hm.sizes j
  bounded j v hj := by
    by_cases heq : j = k
    · rw [heq, AList.lookup_insert] at hj
      obtain rfl := Option.some.inj hj
      exact heq ▸ ⟨hk, hmin, hmax⟩
    · rw [AList.lookup_insert_ne heq] at hj
      exact hm.bounded j v hj

theorem Mirrors.length (hm : Mirrors h m) : h.keys.length = m.keys.length :=
  hm.fields.length_eq.trans (List.length_map _)

/-- The values of the hash are the texts of the sizes. -/
theorem Mirrors.values (hm : Mirrors h m) (order : List String) :
    (walkValues order h).Perm ((m.keys.filterMap m.lookup).map toString) := by
  refine (walkValues_perm order h).trans ((hm.fields.filterMap _).trans ?_)
  rw [List.filterMap_map, List.map_filterMap]
  exact List.Perm.of_eq (List.filterMap_congr fun k _ => hm.sizes k)

theorem Mirrors.size_bounds (hm : Mirrors h m) {n : Int} (hn : n ∈ m.keys.filterMap m.lookup) :
    atoi (toString n) = some n := by
  obtain ⟨k, -, hk⟩ := List.mem_filterMap.mp hn
  obtain ⟨-, hmin, hmax⟩ := hm.bounded k n hk
  exact atoi_toString hmin hmax

theorem Mirrors.index_bounds (hm : Mirrors h m) {k : Nat} (hk : k ∈ m.keys) :
    atoi (toString k) = some (k : Int) := by
  obtain ⟨n, hn⟩ := Option.isSome_iff_exists.mp (AList.lookup_isSome.mpr (AList.mem_keys.mpr hk))
  exact atoi_index (hm.bounded k n hn).1

end Mirrors

/-! ## The loops of the Redis tracker -/

instance : RightCommutative fun total v : Int => wrap64 (total + v) where
  right_comm total v w := by
    unfold wrap64
    rw [Int.bmod_add_bmod, Int.bmod_add_bmod, Int.add_right_comm]

theorem sumSizes_eq {vals : List String} (hparse : ∀ v ∈ vals, (atoi v).isSome) (total : Int) :
    redisTracker.sumSizes total vals =
      .ok ((vals.filterMap atoi).foldl (fun total v => wrap64 (total + v)) total) := by
  induction vals generalizing total with
  | nil => rfl
  | cons v vals ih =>
    obtain ⟨n, hn⟩ := Option.isSome_iff_exists.mp (hparse v List.mem_cons_self)
    unfold redisTracker.sumSizes
    rw [List.filterMap_cons, hn]
    exact ih (fun v hv => hparse v (List.mem_cons_of_mem _ hv)) _

theorem parseIndices_eq {keys : List String} (hparse : ∀ k ∈ keys, (atoi k).isSome)
    (out : List Int) : redisTracker.parseIndices out keys = .ok (out ++ keys.filterMap atoi) := by
  induction keys generalizing out with
  | nil => exact congrArg Except.ok (List.append_nil out).symm
  | cons k keys ih =>
    obtain ⟨n, hn⟩ := Option.isSome_iff_exists.mp (hparse k List.mem_cons_self)
    unfold redisTracker.parseIndices
    rw [List.filterMap_cons, hn]
    refine (ih (fun k hk => hparse k (List.mem_cons_of_mem _ hk)) _).trans ?_
    rw [List.append_assoc]
    rfl

/-- Texts that are read as the numbers of a list. -/
theorem parsed_perm {α : Type} {texts : List String} {l : List α} {text : α → String} {f : α → Int}
    (hperm : texts.Perm (l.map text)) (hread : ∀ a ∈ l, atoi (text a) = some (f a)) :
    (∀ v ∈ texts, (atoi v).isSome) ∧ (texts.filterMap atoi).Perm (l.map f) := by
  constructor
  · intro v hv
    obtain ⟨a, ha, rfl⟩ := List.mem_map.mp (hperm.mem_iff.mp hv)
    rw [hread a ha]
    rfl
  · refine (hperm.filterMap atoi).trans (List.Perm.of_eq ?_)
    rw [List.filterMap_map, ← List.filterMap_eq_map]
    exact List.filterMap_congr hread

section Loops

variable {h : Hash} {m : Chunks}

theorem sumSizes_same (hm : Mirrors h m) (order : List String) (order' : List Nat) :
    redisTracker.sumSizes 0 (walkValues order h) =
      .ok ((walkValues order' m).foldl (fun total v => wrap64 (total + v)) 0) := by
  obtain ⟨hparse, hperm⟩ := parsed_perm (f := id) (hm.values order) fun n hn => hm.size_bounds hn
  rw [List.map_id] at hperm
  rw [sumSizes_eq hparse]
  exact congrArg Except.ok ((hperm.trans (walkValues_perm order' m).symm).foldl_eq 0)

theorem parseIndices_same (hm : Mirrors h m) (order : List String) (order' : List Nat) :
    ∃ l, redisTracker.parseIndices [] (walk order h) = .ok l ∧ l.Nodup ∧
      l.Perm ((walk order' m).map fun k : Nat => (k : Int)) := by
  obtain ⟨hparse, hperm⟩ := parsed_perm (f := fun k : Nat => (k : Int))
    ((walk_perm order h).trans hm.fields) fun k hk => hm.index_bounds hk
  have hwalk := hperm.trans ((walk_perm order' m).map _).symm
  refine ⟨_, parseIndices_eq hparse [], ?_, hwalk⟩
  refine hwalk.nodup_iff.mpr ((walk_nodup order' m).map fun _ _ heq => Int.ofNat.inj heq)

end Loops

/-! ## One call -/

/-- Redis mirrors the maps, at the key of each upload. -/
def Tracks (s : Store Hash) (t : Memory) : Prop :=
  ∀ uploadID, Mirrors (s.fields (redisTracker.key uploadID)) (t.chunks uploadID)

theorem key_injective : Function.Injective redisTracker.key := by
  intro u v h
  unfold redisTracker.key at h
  simpa using h

theorem Tracks.set {s s' : Store Hash} {t : Memory} {uploadID : String} {m : Option Chunks}
    (h : Tracks s t) (hself : Mirrors (s'.fields (redisTracker.key uploadID)) (m.getD ∅))
    (hne : ∀ key, key ≠ redisTracker.key uploadID → s'.fields key = s.fields key) :
    Tracks s' ⟨Function.update t.data uploadID m⟩ := by
  intro v
  unfold Memory.chunks
  dsimp only
  by_cases hv : v = uploadID
  · rw [hv, Function.update_self]
    exact hself
  · rw [Function.update_of_ne hv, hne _ fun heq => hv (key_injective heq)]
    exact h v

theorem memory_recordChunk (t : Memory) (uploadID : String) (k : Nat) (n : Int) :
    memoryTracker.recordChunk t uploadID k n =
      ⟨Function.update t.data uploadID (some ((t.chunks uploadID).insert k n))⟩ := by
  unfold memoryTracker.recordChunk Memory.chunks
  cases t.data uploadID <;> rfl

theorem recordChunk_same (uploadID : String) {k : Nat} {n : Int} (hk : (k : Int) < 2 ^ 63)
    (hmin : -2 ^ 63 ≤ n) (hmax : n < 2 ^ 63) {s : Store Hash} {t : Memory} (h : Tracks s t) :
    wp hashes Quiet (redisTracker.recordChunk uploadID k n)
      (fun r s' => r = .ok () ∧ Tracks s' (memoryTracker.recordChunk t uploadID k n)) s := by
  rintro o ⟨hset, hlive⟩
  have hanswer : hashes.answer o s
      (.hset (redisTracker.key uploadID) (toString k) (toString n)) = _ :=
    reply_answered hset _ _
  rw [hanswer]
  rintro o' ⟨hexpire, -⟩
  have hanswer' : hashes.answer o' ((s.wait o.wait).hset (redisTracker.key uploadID) (toString k)
      (toString n)).2 (.expire (redisTracker.key uploadID) redisTracker.ttl) = _ :=
    reply_answered hexpire _ _
  rw [hanswer']
  refine ⟨rfl, ?_⟩
  rw [memory_recordChunk]
  refine h.set ?_ fun key hkey => ?_
  · rw [expire_fields, wait_fields, hset_self hlive, wait_fields]
    exact (h uploadID).insert hk hmin hmax
  · rw [expire_fields, wait_fields, hset_ne hkey, wait_fields]

theorem purge_same (uploadID : String) {s : Store Hash} {t : Memory} (h : Tracks s t) :
    wp hashes Quiet (redisTracker.purge uploadID)
      (fun r s' => r = .ok () ∧ Tracks s' (memoryTracker.purge t uploadID)) s := by
  rintro o ⟨hdel, -⟩
  have hanswer : hashes.answer o s (.del (redisTracker.key uploadID)) = _ := reply_answered hdel _ _
  rw [hanswer]
  refine ⟨rfl, h.set ?_ fun key hkey => ?_⟩
  · rw [del_self]
    exact mirrors_empty
  · rw [del_ne hkey, wait_fields]

section Reads

variable {s : Store Hash} {t : Memory} (uploadID : String) (order : List Nat)

theorem chunkCount_same (h : Tracks s t) :
    wp hashes Quiet (redisTracker.chunkCount uploadID)
      (fun r s' => r = .ok (memoryTracker.chunkCount t uploadID) ∧ Tracks s' t) s := by
  rintro o ⟨hlen, hlive⟩
  have hanswer : hashes.answer o s (.hlen (redisTracker.key uploadID)) = _ :=
    reply_answered hlen _ _
  rw [hanswer]
  refine ⟨congrArg Except.ok ?_, h⟩
  unfold Store.hlen memoryTracker.chunkCount
  rw [hash_unexpired hlive]
  exact (h uploadID).length

theorem totalSize_same (h : Tracks s t) :
    wp hashes Quiet (redisTracker.totalSize uploadID)
      (fun r s' => r = .ok (memoryTracker.totalSize order t uploadID) ∧ Tracks s' t) s := by
  rintro o ⟨hvals, hlive⟩
  have hanswer : hashes.answer o s (.hvals (redisTracker.key uploadID)) = _ :=
    reply_answered hvals _ _
  rw [hanswer]
  refine ⟨?_, h⟩
  unfold Store.hvals
  rw [hash_unexpired hlive]
  exact sumSizes_same (h uploadID) o.order order

theorem listChunks_same (h : Tracks s t) :
    wp hashes Quiet (redisTracker.listChunks uploadID)
      (fun r s' => (∃ l, r = .ok l ∧ l.Nodup ∧
        l.Perm (memoryTracker.listChunks order t uploadID)) ∧ Tracks s' t) s := by
  rintro o ⟨hkeys, hlive⟩
  have hanswer : hashes.answer o s (.hkeys (redisTracker.key uploadID)) = _ :=
    reply_answered hkeys _ _
  rw [hanswer]
  refine ⟨?_, h⟩
  unfold Store.hkeys
  rw [hash_unexpired hlive]
  exact parseIndices_same (h uploadID) o.order order

end Reads

theorem wp_result {α : Type} {p : redisTracker.RedisProg α} {f : α → Result}
    {Q : Result → Store Hash → Prop} {s : Store Hash}
    (h : wp hashes Quiet p (fun a s' => Q (f a) s') s) : wp hashes Quiet (f <$> p) Q s := by
  rw [map_eq_pure_bind, wp_bind]
  exact wp_mono h fun _ _ hQ => hQ

theorem size_fits (size : Int64) : -2 ^ 63 ≤ size.toInt ∧ size.toInt < 2 ^ 63 :=
  ⟨size.le_toInt, size.toInt_lt⟩

/-- One call gives the same result, and the trackers still hold the same. -/
theorem serve_same (c : TrackerCall) (order : List Nat) {s : Store Hash} {t : Memory}
    (h : Tracks s t) :
    wp hashes Quiet (redisTracker.serve c)
      (fun r s' => r.Same (memoryTracker.serve order t c).1 ∧
        Tracks s' (memoryTracker.serve order t c).2) s := by
  cases c with
  | recordChunk uploadID chunkIdx size =>
    obtain ⟨hmin, hmax⟩ := size_fits size
    have hk : (chunkIdx.val : Int) < 2 ^ 63 := by exact_mod_cast chunkIdx.isLt
    refine wp_result (wp_mono (recordChunk_same uploadID hk hmin hmax h) ?_)
    rintro _ _ ⟨rfl, ht⟩
    exact ⟨rfl, ht⟩
  | chunkCount uploadID =>
    refine wp_result (wp_mono (chunkCount_same uploadID h) ?_)
    rintro _ _ ⟨rfl, ht⟩
    exact ⟨rfl, ht⟩
  | totalSize uploadID =>
    refine wp_result (wp_mono (totalSize_same uploadID order h) ?_)
    rintro _ _ ⟨rfl, ht⟩
    exact ⟨rfl, ht⟩
  | listChunks uploadID =>
    refine wp_result (wp_mono (listChunks_same uploadID order h) ?_)
    rintro _ _ ⟨⟨l, rfl, hnodup, hperm⟩, ht⟩
    exact ⟨⟨hnodup, hperm.nodup_iff.mp hnodup, hperm⟩, ht⟩
  | purge uploadID =>
    refine wp_result (wp_mono (purge_same uploadID h) ?_)
    rintro _ _ ⟨rfl, ht⟩
    exact ⟨rfl, ht⟩

/-! ## The law -/

theorem serves_same {calls : List TrackerCall} {s : Store Hash} {t : Memory} {rs rs' : List Result}
    (h : Tracks s t) (hredis : redisTracker.Serves s calls rs)
    (hmemory : memoryTracker.Serves t calls rs') : List.Forall₂ Result.Same rs rs' := by
  induction hredis generalizing t rs' with
  | nil s =>
    cases hmemory
    exact .nil
  | cons hends _ ih =>
    cases hmemory with
    | cons order hrest =>
      obtain ⟨os, hmeets, hrun⟩ := hends
      obtain ⟨hsame, ht⟩ := wp_run (serve_same _ order h) hmeets hrun
      exact .cons hsame (ih ht hrest)

/-- No command of the tracker lets a hash expire at once. -/
def Lasting (c : HashCall) : Prop := ∀ key seconds, c = .expire key seconds → 0 < seconds

theorem serve_lasting (c : TrackerCall) : (redisTracker.serve c).Only Lasting fun _ => True := by
  cases c with
  | recordChunk uploadID chunkIdx size =>
    refine ⟨by simp [Lasting], fun x => ?_⟩
    cases x with
    | error e => trivial
    | ok n =>
      refine ⟨?_, fun x => ?_⟩
      · intro key seconds heq
        obtain ⟨-, rfl⟩ := HashCall.expire.inj heq
        decide
      · cases x <;> trivial
  | chunkCount uploadID => exact ⟨by simp [Lasting], fun x => by cases x <;> trivial⟩
  | totalSize uploadID => exact ⟨by simp [Lasting], fun x => by cases x <;> trivial⟩
  | listChunks uploadID => exact ⟨by simp [Lasting], fun x => by cases x <;> trivial⟩
  | purge uploadID => exact ⟨by simp [Lasting], fun x => by cases x <;> trivial⟩

theorem redis_serves (calls : List TrackerCall) {s : Store Hash} (h : Unexpired s) :
    ∃ rs, redisTracker.Serves s calls rs := by
  induction calls generalizing s with
  | nil => exact ⟨[], .nil s⟩
  | cons c calls ih =>
    obtain ⟨r, s', hends, hs'⟩ := ends_while (w := hashes) (serve_lasting c) h
      fun _ _ hlasting hunexpired => quiet_choice hlasting hunexpired
    obtain ⟨rs, hrest⟩ := ih hs'
    exact ⟨r :: rs, .cons hends hrest⟩

theorem memory_serves (calls : List TrackerCall) (t : Memory) :
    ∃ rs, memoryTracker.Serves t calls rs := by
  induction calls generalizing t with
  | nil => exact ⟨[], .nil t⟩
  | cons c calls ih =>
    obtain ⟨rs, hrest⟩ := ih (memoryTracker.serve [] t c).2
    exact ⟨_ :: rs, .cons [] hrest⟩

/-- Both trackers, started with nothing, serve every sequence of calls, and with the same results. -/
theorem trackers_are_interchangeable (now : Nat) (calls : List TrackerCall) :
    (∃ rs, redisTracker.Serves ⟨now, fun _ => none⟩ calls rs) ∧
      (∃ rs, memoryTracker.Serves ⟨fun _ => none⟩ calls rs) ∧
      ∀ rs rs', redisTracker.Serves ⟨now, fun _ => none⟩ calls rs →
        memoryTracker.Serves ⟨fun _ => none⟩ calls rs' → List.Forall₂ Result.Same rs rs' := by
  have hunexpired : Unexpired ⟨now, fun _ => none⟩ := by
    intro key e hkey
    cases hkey
  have htracks : Tracks ⟨now, fun _ => none⟩ ⟨fun _ => none⟩ := fun _ => mirrors_empty
  exact ⟨redis_serves calls hunexpired, memory_serves calls _, fun _ _ => serves_same htracks⟩

/-! ## The tracker of the upload service -/

theorem values_eq (m : Chunks) : m.keys.filterMap m.lookup = m.entries.map (·.2) := by
  unfold AList.keys List.keys
  rw [List.filterMap_map, ← List.filterMap_eq_map]
  exact List.filterMap_congr fun e he => AList.mem_lookup_iff.mpr he

/-- The sum over a map does not depend on the order. -/
theorem totalSize_any_order (order : List Nat) (t : Memory) (uploadID : String) :
    memoryTracker.totalSize order t uploadID = (t.chunks uploadID).totalSize := by
  unfold memoryTracker.totalSize Chunks.totalSize
  rw [(walkValues_perm order _).foldl_eq 0, values_eq, List.foldl_map]

theorem chunks_update (t : Memory) (uploadID : String) (m : Option Chunks) (id : String) :
    Memory.chunks ⟨Function.update t.data uploadID m⟩ id =
      setAt t.chunks uploadID (m.getD ∅) id := by
  unfold Memory.chunks setAt
  dsimp only
  by_cases hid : id = uploadID
  · rw [hid, Function.update_self, if_pos rfl]
  · rw [Function.update_of_ne hid, if_neg hid]

/-- What the upload service keeps of its chunks, and reads, is what the memory tracker does. -/
theorem uploads_track {u : Uploads} {t : Memory} (h : u.chunks = t.chunks) (uploadID : String)
    (order : List Nat) :
    (∀ (k : Nat) (n : Int), (answerCall {} u (.recordChunk uploadID k n)).2.chunks =
        (memoryTracker.recordChunk t uploadID k n).chunks) ∧
      (answerCall {} u (.totalSize uploadID)).1 =
        .ok (memoryTracker.totalSize order t uploadID) ∧
      (∃ l : List Nat, (answerCall { order := order } u (.listChunks uploadID)).1 = .ok l ∧
        l.map (fun k : Nat => (k : Int)) = memoryTracker.listChunks order t uploadID) ∧
      (answerCall {} u (.purge uploadID)).2.chunks = (memoryTracker.purge t uploadID).chunks := by
  refine ⟨fun k n => ?_, ?_, ⟨walk order (t.chunks uploadID), ?_, rfl⟩, ?_⟩
  · rw [memory_recordChunk]
    funext id
    refine Eq.trans ?_ (chunks_update t uploadID _ id).symm
    rw [← h]
    rfl
  · rw [totalSize_any_order, ← h]
    rfl
  · rw [← h]
    rfl
  · funext id
    refine Eq.trans ?_ (chunks_update t uploadID none id).symm
    rw [← h]
    rfl

end recast_rules.chunk_trackers
