-- What a replayed response is: an earlier one, to the same request. The key
-- in Redis is joined with colons, so this rests on the shape of the routes.
import RecastAi.Histories
import RecastAi.Idempotency

open call_programs go_text redis recast_rules.auth
open recast_rules.transcript (Json)

namespace recast_rules.idempotent

/-! ## The routes -/

/-- The POST and PATCH routes behind the middleware, with their path parameters as they are once
the URL is unescaped. -/
inductive Route where
  | createJob
  | updateTranscript (id : String)
  | regenerateSegment (id segmentID : String)
  | createShare (id : String)

namespace Route

def method : Route → String
  | .updateTranscript _ => "PATCH"
  | _ => "POST"

def path : Route → String
  | .createJob => "/v1/jobs"
  | .updateTranscript id => "/v1/jobs/" ++ id ++ "/transcript"
  | .regenerateSegment id segmentID =>
    "/v1/jobs/" ++ id ++ "/segments/" ++ segmentID ++ "/regenerate"
  | .createShare id => "/v1/jobs/" ++ id ++ "/share"

def params : Route → List String
  | .createJob => []
  | .updateTranscript id => [id]
  | .regenerateSegment id segmentID => [id, segmentID]
  | .createShare id => [id]

end Route

/-- The routes are matched on the escaped path, and the middleware reads the unescaped one. -/
structure Request.Reaches (r : Request) (route : Route) : Prop where
  method : r.method = route.method
  path : r.path = route.path

/-- No parameter of the path was sent with an escaped slash. -/
def Route.NoSlash (route : Route) : Prop := ∀ param ∈ route.params, '/' ∉ param.toList

/-! ## The key in Redis -/

theorem cut_unique {c : Char} {xs xs' ys ys' : List Char} (hxs : c ∉ xs) (hxs' : c ∉ xs')
    (h : xs ++ c :: ys = xs' ++ c :: ys') : xs = xs' ∧ ys = ys' := by
  have htake : ∀ zs ws : List Char, c ∉ zs → (zs ++ c :: ws).takeWhile (· ≠ c) = zs := by
    intro zs ws hzs
    rw [List.takeWhile_append_of_pos (fun a ha => by simpa using fun he : a = c => hzs (he ▸ ha))]
    simp
  have hsame : xs = xs' := by rw [← htake xs ys hxs, h, htake xs' ys' hxs']
  subst hsame
  exact ⟨rfl, (List.cons.inj (List.append_cancel_left h)).2⟩

theorem method_no_colon (route : Route) : ':' ∉ route.method.toList := by
  have hmethod : route.method = "POST" ∨ route.method = "PATCH" := by
    cases route <;> simp [Route.method]
  rcases hmethod with h | h <;> rw [h] <;> decide

/-- What stands behind the id of the job and the slash after it. -/
def Route.tail : Route → String
  | .createJob => ""
  | .updateTranscript _ => "transcript"
  | .regenerateSegment _ segmentID => "segments/" ++ segmentID ++ "/regenerate"
  | .createShare _ => "share"

theorem path_of_job {route : Route} (hne : route ≠ .createJob) :
    ∃ id ∈ route.params,
      route.path.toList = "/v1/jobs/".toList ++ (id.toList ++ '/' :: route.tail.toList) := by
  have hshare : "/share".toList = '/' :: "share".toList := rfl
  have htranscript : "/transcript".toList = '/' :: "transcript".toList := rfl
  have hsegments : "/segments/".toList = '/' :: "segments/".toList := rfl
  cases route with
  | createJob => exact absurd rfl hne
  | updateTranscript id =>
    refine ⟨id, List.mem_cons_self, ?_⟩
    simp only [Route.path, Route.tail, String.toList_append, htranscript, List.append_assoc]
  | regenerateSegment id segmentID =>
    refine ⟨id, List.mem_cons_self, ?_⟩
    simp only [Route.path, Route.tail, String.toList_append, hsegments, List.append_assoc,
      List.cons_append]
  | createShare id =>
    refine ⟨id, List.mem_cons_self, ?_⟩
    simp only [Route.path, Route.tail, String.toList_append, hshare, List.append_assoc]

theorem tail_unique {route route' : Route} (hplain : route.NoSlash) (hplain' : route'.NoSlash)
    (hmethod : route.method = route'.method) (hne : route ≠ .createJob) (hne' : route' ≠ .createJob)
    {k k' : List Char} (h : route.tail.toList ++ ':' :: k = route'.tail.toList ++ ':' :: k') :
    route.tail = route'.tail ∧ k = k' := by
  have hsame : ∀ t : List Char, t ++ ':' :: k = t ++ ':' :: k' → k = k' := fun t ht =>
    (List.cons.inj (List.append_cancel_left ht)).2
  cases route with
  | createJob => exact absurd rfl hne
  | updateTranscript id =>
    cases route' with
    | updateTranscript id' => exact ⟨rfl, hsame _ h⟩
    | _ => simp [Route.method] at hmethod
  | createShare id =>
    cases route' with
    | createJob => exact absurd rfl hne'
    | updateTranscript id' => simp [Route.method] at hmethod
    | regenerateSegment id' segmentID' => simp [Route.tail] at h
    | createShare id' => exact ⟨rfl, hsame _ h⟩
  | regenerateSegment id segmentID =>
    cases route' with
    | createJob => exact absurd rfl hne'
    | updateTranscript id' => simp [Route.method] at hmethod
    | createShare id' => simp [Route.tail] at h
    | regenerateSegment id' segmentID' =>
      have hregenerate : "/regenerate".toList = '/' :: "regenerate".toList := rfl
      simp only [Route.tail, String.toList_append, hregenerate, List.append_assoc,
        List.cons_append] at h
      obtain ⟨hsegment, hrest⟩ := cut_unique (hplain segmentID (by simp [Route.params]))
        (hplain' segmentID' (by simp [Route.params])) (List.append_cancel_left h)
      refine ⟨?_, hsame _ hrest⟩
      simp only [Route.tail, String.toList_inj.mp hsegment]

theorem createJob_apart {route : Route} (hne : route ≠ .createJob) (k k' : List Char) :
    "/v1/jobs".toList ++ ':' :: k ≠ route.path.toList ++ ':' :: k' := by
  have hslash : "/v1/jobs/".toList = "/v1/jobs".toList ++ ['/'] := rfl
  obtain ⟨id, -, hpath⟩ := path_of_job hne
  intro h
  rw [hpath, hslash, List.append_assoc, List.append_assoc] at h
  exact absurd (List.cons.inj (List.append_cancel_left h)).1 (by decide)

/-- A path ends where its last segment is followed by a colon. -/
theorem path_unique {route route' : Route} (hplain : route.NoSlash) (hplain' : route'.NoSlash)
    (hmethod : route.method = route'.method) {k k' : List Char}
    (h : route.path.toList ++ ':' :: k = route'.path.toList ++ ':' :: k') :
    route.path = route'.path ∧ k = k' := by
  by_cases hjob : route = .createJob
  · subst hjob
    by_cases hjob' : route' = .createJob
    · subst hjob'
      exact ⟨rfl, (List.cons.inj (List.append_cancel_left h)).2⟩
    · exact absurd h (createJob_apart hjob' k k')
  · by_cases hjob' : route' = .createJob
    · subst hjob'
      exact absurd h.symm (createJob_apart hjob k' k)
    · obtain ⟨id, hid, hpath⟩ := path_of_job hjob
      obtain ⟨id', hid', hpath'⟩ := path_of_job hjob'
      rw [hpath, hpath'] at h
      simp only [List.append_assoc, List.cons_append] at h
      obtain ⟨hsame, hrest⟩ := cut_unique (hplain id hid) (hplain' id' hid')
        (List.append_cancel_left h)
      obtain ⟨htail, hk⟩ := tail_unique hplain hplain' hmethod hjob hjob' hrest
      refine ⟨String.toList_inj.mp ?_, hk⟩
      rw [hpath, hpath', hsame, htail]

theorem joinKey_toList (userID method path key : String) (hash : Bytes) :
    (joinKey userID method path key hash).toList =
      "idemp:".toList ++ (userID.toList ++ ':' :: (method.toList ++ ':' ::
        (path.toList ++ ':' :: (key.toList ++ ':' :: hexEncode hash)))) := by
  have hcolon : ":".toList = [':'] := rfl
  have hhex := String.toList_ofList (l := hexEncode hash)
  unfold joinKey
  generalize String.ofList (hexEncode hash) = hex at hhex ⊢
  simp only [String.toList_append, hcolon, hhex, List.append_assoc, List.cons_append,
    List.nil_append]

/-- The key tells the user, the method, the path, the key of the client and the hash. -/
theorem joinKey_unique {userID userID' key key' : String} {route route' : Route}
    {hash hash' : Bytes} (huser : ':' ∉ userID.toList) (huser' : ':' ∉ userID'.toList)
    (hplain : route.NoSlash) (hplain' : route'.NoSlash) (hlength : hash.length = hash'.length)
    (h : joinKey userID route.method route.path key hash =
      joinKey userID' route'.method route'.path key' hash') :
    userID = userID' ∧ route.method = route'.method ∧ route.path = route'.path ∧ key = key' ∧
      hash = hash' := by
  have hlist := congrArg String.toList h
  rw [joinKey_toList, joinKey_toList] at hlist
  obtain ⟨husers, hrest⟩ := cut_unique huser huser' (List.append_cancel_left hlist)
  obtain ⟨hmethod, hrest⟩ := cut_unique (method_no_colon route) (method_no_colon route') hrest
  have hhex : (':' :: hexEncode hash).length = (':' :: hexEncode hash').length := by
    simp [hlength]
  have hrest' : (route.path.toList ++ ':' :: key.toList) ++ ':' :: hexEncode hash =
      (route'.path.toList ++ ':' :: key'.toList) ++ ':' :: hexEncode hash' := by
    simp only [List.append_assoc, List.cons_append]
    exact hrest
  obtain ⟨hpaths, hhashes⟩ := List.append_inj' hrest' hhex
  obtain ⟨hpath, hkey⟩ := path_unique hplain hplain' (String.toList_inj.mp hmethod) hpaths
  exact ⟨String.toList_inj.mp husers, String.toList_inj.mp hmethod, hpath,
    String.toList_inj.mp hkey, hexEncode_injective (List.cons.inj hhashes).2⟩

/-! ## What is in the cache -/

section Cache

variable (sum256 : Bytes → Vector UInt8 32) (requests : List Request)

/-- The payload is the envelope of a success response in the log, to a request of this key. -/
def Backed (redisKey : String) (payload : Json) (log : History) : Prop :=
  ∃ (j : Nat) (written : Written), KeyOf sum256 requests j redisKey ∧
    (⟨j, .respond, written⟩ : Event Call Answer) ∈ log ∧ written.Ok ∧
      payload = written.envelope.encode

structure Cached (s : Shot Call Answer (Store Json)) : Prop where
  stored : ∀ redisKey e, s.state.entries redisKey = some e →
    Backed sum256 requests redisKey e.value s.log
  found : ∀ newer older i redisKey payload,
    s.log = newer ++
      ⟨i, .get redisKey, (Except.ok (some payload) : Except Failure (Option Json))⟩ :: older →
    Backed sum256 requests redisKey payload older

variable {sum256 requests} {s : Shot Call Answer (Store Json)} {i : Nat} {c : Call} {o : Choice}
  {redisKey : String} {payload : Json}

theorem backed_mono {log log' : History} (h : Backed sum256 requests redisKey payload log)
    (hlog : ∀ e ∈ log, e ∈ log') : Backed sum256 requests redisKey payload log' := by
  obtain ⟨j, written, hkey, hmem, hrest⟩ := h
  exact ⟨j, written, hkey, hlog _ hmem, hrest⟩

/-- An entry is there before the call, or the call stored it. -/
theorem entries_answer {e : Entry Json}
    (he : (answerCall o s.state c).2.entries redisKey = some e) :
    s.state.entries redisKey = some e ∨ ∃ seconds, c = .set redisKey e.value seconds := by
  cases c with
  | get key =>
    simp only [answerCall, Outcome.reply, ite_self, wait_entries] at he
    exact Or.inl he
  | enter => exact Or.inl he
  | respond => exact Or.inl he
  | set key payload seconds =>
    simp only [answerCall, Outcome.reply] at he
    split at he
    · by_cases hkey : redisKey = key
      · subst hkey
        rw [set_self, Option.some.injEq] at he
        exact Or.inr ⟨seconds, by rw [← he]⟩
      · rw [set_ne hkey] at he
        exact Or.inl he
    · exact Or.inl he

/-- What a lookup finds is in the cache. -/
theorem found_answer {key : String}
    (h : (answerCall o s.state (.get key)).1 = Except.ok (some payload)) :
    ∃ e, s.state.entries key = some e ∧ e.value = payload := by
  obtain ⟨-, hget⟩ := reply_ok h
  obtain ⟨e, he, -, hvalue⟩ := get_eq_some hget
  exact ⟨e, he, hvalue⟩

theorem cached_start (now : Nat) : Cached sum256 requests ⟨⟨now, fun _ => none⟩, []⟩ :=
  ⟨fun _ _ he => by simp at he, fun _ _ _ _ _ he => by simp at he⟩

theorem cached_step (hd : Due sum256 requests i (s.own i) c) (h : Cached sum256 requests s) :
    Cached sum256 requests (s.after cache i c o) := by
  have hlog : ∀ e ∈ s.log, e ∈ (s.after cache i c o).log := fun e he =>
    List.mem_cons_of_mem _ he
  constructor
  · intro redisKey e he
    rcases entries_answer he with hold | ⟨seconds, rfl⟩
    · exact backed_mono (h.stored redisKey e hold) hlog
    · obtain ⟨hkey, -, written, h', hown, hok, hpayload⟩ := hd
      have hmem : (⟨i, .respond, written⟩ : Event Call Answer) ∈ s.own i := by
        rw [hown]
        exact List.mem_cons_self
      exact ⟨i, written, hkey, hlog _ (mem_own.mp hmem).1, hok, hpayload⟩
  · intro newer older i' key payload hsplit
    cases newer with
    | nil =>
      obtain ⟨hnew, holder⟩ := List.cons.inj hsplit
      obtain ⟨rfl, rfl, hx⟩ := Event.mk.inj hnew
      obtain ⟨e, he, rfl⟩ := found_answer (eq_of_heq hx)
      rw [← holder]
      exact h.stored key e he
    | cons e newer => exact h.found newer older i' key payload (List.cons.inj hsplit).2

theorem cached_run (sum256 : Bytes → Vector UInt8 32) (requests : List Request) (now : Nat)
    (picks : List (Nat × Choice)) :
    Cached sum256 requests (schedule cache picks (start sum256 now requests)).shot :=
  invariant_of_due (fun _ _ _ _ hd h => cached_step hd h) (all_follow sum256 requests now)
    (cached_start now) picks

/-- A reply that is marked as replayed is a success that was in the log when it was looked up,
to a request of the same key. -/
theorem replayed_success (sum256 : Bytes → Vector UInt8 32) (requests : List Request) (now : Nat)
    (picks : List (Nat × Choice)) {reply : Reply}
    (hdone : (schedule cache picks (start sum256 now requests)).threads[i]? = some (.done reply))
    (hreplayed : reply.replayed = true) :
    ∃ newer older redisKey found j written,
      (schedule cache picks (start sum256 now requests)).shot.log =
        newer ++ ⟨i, .get redisKey, found⟩ :: older ∧
      KeyOf sum256 requests i redisKey ∧ KeyOf sum256 requests j redisKey ∧
      (⟨j, .respond, written⟩ : Event Call Answer) ∈ older ∧ Written.Ok written ∧
      reply.response = sentBy (Written.acts written) := by
  have hends := allFollow_run (w := cache) (all_follow sum256 requests now) picks i _ hdone
  change Ends sum256 requests i reply _ at hends
  unfold Ends at hends
  rw [if_pos hreplayed] at hends
  obtain ⟨redisKey, payload, rec_, hkey, hown, hdecode, hresponse⟩ := hends
  have hmem : (⟨i, .get redisKey, (Except.ok (some payload) : Except Failure (Option Json))⟩ :
      Event Call Answer) ∈ (schedule cache picks (start sum256 now requests)).shot.own i := by
    rw [hown]
    exact List.mem_cons_self
  obtain ⟨newer, older, hlog⟩ := List.append_of_mem (mem_own.mp hmem).1
  obtain ⟨j, written, hkey', hrespond, hok, hpayload⟩ :=
    (cached_run sum256 requests now picks).found newer older i redisKey payload hlog
  obtain ⟨hdecoded, hsent⟩ := replayed_as_sent hok
  rw [hpayload, hdecoded, Option.some.injEq] at hdecode
  subst hdecode
  exact ⟨newer, older, redisKey, _, j, written, hlog, hkey, hkey', hrespond, hok,
    hresponse.trans hsent⟩

end Cache

/-! ## Replays -/

/-- Each reply that is marked as replayed is a success response to an earlier request of the same
user, with the same method, path, key and body. -/
def ReplaysSound (requests : List Request) (cfg : Config Call Answer (Store Json) Reply) : Prop :=
  ∀ (i : Nat) (reply : Reply), cfg.threads[i]? = some (.done reply) → reply.replayed = true →
    ∃ r newer older redisKey found, requests[i]? = some r ∧
      cfg.shot.log = newer ++ ⟨i, .get redisKey, found⟩ :: older ∧
      ∃ (j : Nat) (r' : Request) (written : Written), requests[j]? = some r' ∧
        (⟨j, .respond, written⟩ : Event Call Answer) ∈ older ∧ written.Ok ∧
        reply.response = sentBy written.acts ∧ r'.userID = r.userID ∧ r'.method = r.method ∧
        r'.path = r.path ∧ r'.key = r.key ∧ r'.body = r.body

/-- The truncated hash tells the bodies of the requests apart. -/
def NoCollision (sum256 : Bytes → Vector UInt8 32) (requests : List Request) : Prop :=
  ∀ r ∈ requests, ∀ r' ∈ requests, ∀ body body', r.body = .ok body → r'.body = .ok body' →
    (sum256 body).toList.take 8 = (sum256 body').toList.take 8 → body = body'

/-- The law: for requests to the routes, from users without a colon in their ids and without an
escaped slash in a path parameter, whatever the order of their steps and whatever fails, what is
replayed is what was answered before. -/
theorem replays_are_sound_while (sum256 : Bytes → Vector UInt8 32) (requests : List Request)
    (husers : ∀ r ∈ requests, ':' ∉ r.userID.toList) (hhash : NoCollision sum256 requests)
    (hroutes : ∀ r ∈ requests, ∃ route : Route, r.Reaches route ∧ route.NoSlash)
    (now : Nat) (picks : List (Nat × Choice)) :
    ReplaysSound requests (schedule cache picks (start sum256 now requests)) := by
  intro i reply hdone hreplayed
  obtain ⟨newer, older, redisKey, found, j, written, hlog, ⟨r, body, hr, hlooks, hkey⟩,
    ⟨r', body', hr', hlooks', hkey'⟩, hrespond, hok, hresponse⟩ :=
    replayed_success sum256 requests now picks hdone hreplayed
  -- Both requests have the key, so they agree in all that it is joined from.
  obtain ⟨route, hroute, hplain⟩ := hroutes r (List.mem_of_getElem? hr)
  obtain ⟨route', hroute', hplain'⟩ := hroutes r' (List.mem_of_getElem? hr')
  have hsame : r'.redisKey sum256 body' = r.redisKey sum256 body := hkey'.symm.trans hkey
  unfold Request.redisKey at hsame
  rw [hroute.method, hroute.path, hroute'.method, hroute'.path] at hsame
  obtain ⟨huser, hmethod, hpath, hclient, hdigest⟩ := joinKey_unique
    (husers r' (List.mem_of_getElem? hr')) (husers r (List.mem_of_getElem? hr)) hplain' hplain
    (by simp) hsame
  have hbody : body' = body := hhash r' (List.mem_of_getElem? hr') r (List.mem_of_getElem? hr)
    body' body hlooks'.read hlooks.read hdigest
  refine ⟨r, newer, older, redisKey, found, hr, hlog, j, r', written, hr', hrespond, hok,
    hresponse, huser, ?_, ?_, hclient, ?_⟩
  · rw [hroute.method, hroute'.method, hmethod]
  · rw [hroute.path, hroute'.path, hpath]
  · rw [hlooks.read, hlooks'.read, hbody]

/-! ## Two requests to share a job -/

/-- The digest of no bytes. -/
def emptyDigest : Vector UInt8 32 :=
  #v[0xe3, 0xb0, 0xc4, 0x42, 0x98, 0xfc, 0x1c, 0x14, 0x9a, 0xfb, 0xf4, 0xc8, 0x99, 0x6f, 0xb9, 0x24,
    0x27, 0xae, 0x41, 0xe4, 0x64, 0x9b, 0x93, 0x4c, 0xa4, 0x95, 0x99, 0x1b, 0x78, 0x52, 0xb8, 0x55]

/-- The hash, as far as the requests below need it. -/
def sumOfEmpty (_ : Bytes) : Vector UInt8 32 := emptyDigest

def adasClaims : Claims where
  issuer := "recast"
  subject := "ada"
  expiresAt := none
  issuedAt := none
  userID := "ada"
  email := "ada@example.com"
  role := "user"

/-- Ada asks for the share link of a job, with a key that has a colon. -/
def adasShare : Request where
  claims := some adasClaims
  method := "POST"
  path := "/v1/jobs/j1/share"
  key := "x/share:k"
  body := .ok []

/-- The URL of this request was `/v1/jobs/j1%2Fshare:x/share`. -/
def adasOther : Request where
  claims := some adasClaims
  method := "POST"
  path := "/v1/jobs/j1/share:x/share"
  key := "k"
  body := .ok []

/-- An empty object on a line. -/
def shareLink : Written := .json 200 [0x7b, 0x7d, 0x0a]

/-- The first request is answered and stored before the second comes. -/
def oneAfterTheOther : List (Nat × Choice) :=
  [(0, {}), (0, {}), (0, { written := shareLink }), (0, {}), (1, {})]

theorem adas_share_is_replayed :
    (schedule cache oneAfterTheOther (start sumOfEmpty 0 [adasShare, adasShare])).threads[1]? =
        some (.done ⟨sentBy shareLink.acts, true⟩) ∧
      ReplaysSound [adasShare, adasShare]
        (schedule cache oneAfterTheOther (start sumOfEmpty 0 [adasShare, adasShare])) := by
  have hall : ∀ r ∈ [adasShare, adasShare], r = adasShare := fun r hr =>
    List.eq_of_mem_replicate (n := 2) hr
  refine ⟨by with_unfolding_all rfl, replays_are_sound_while sumOfEmpty _ ?_ ?_ ?_ 0 _⟩
  · intro r hr
    rw [hall r hr]
    decide
  · intro r hr r' hr' body body' hbody hbody' _
    rw [hall r hr] at hbody
    rw [hall r' hr'] at hbody'
    cases hbody
    cases hbody'
    rfl
  · intro r hr
    rw [hall r hr]
    refine ⟨.createShare "j1", ⟨rfl, rfl⟩, fun param hparam => ?_⟩
    rw [List.mem_singleton.mp hparam]
    decide

def responder (e : Event Call Answer) : Option Nat :=
  match e.call with
  | .respond => some e.thread
  | _ => none

/-- The second request has another path and another key, and it is given the link of the job of
the first. -/
theorem a_link_is_replayed_for_another_path :
    (∃ route, adasShare.Reaches route) ∧ (∃ route, adasOther.Reaches route) ∧
      adasOther.path ≠ adasShare.path ∧ adasOther.key ≠ adasShare.key ∧
      (schedule cache oneAfterTheOther (start sumOfEmpty 0 [adasShare, adasOther])).threads[1]? =
        some (.done ⟨sentBy shareLink.acts, true⟩) ∧
      ¬ ReplaysSound [adasShare, adasOther]
        (schedule cache oneAfterTheOther (start sumOfEmpty 0 [adasShare, adasOther])) := by
  have hreplayed :
      (schedule cache oneAfterTheOther (start sumOfEmpty 0 [adasShare, adasOther])).threads[1]? =
        some (.done ⟨sentBy shareLink.acts, true⟩) := by with_unfolding_all rfl
  refine ⟨⟨.createShare "j1", rfl, rfl⟩, ⟨.createShare "j1/share:x", rfl, rfl⟩, by decide, by decide,
    hreplayed, fun h => ?_⟩
  obtain ⟨r, newer, older, redisKey, found, hr, hlog, j, r', written, hr', hrespond, -, -, -, -,
    hpath, -⟩ := h 1 _ hreplayed rfl
  obtain rfl : r = adasOther := by simpa using hr.symm
  -- Only the first request has answered, and its path is another.
  have hmem : (⟨j, .respond, written⟩ : Event Call Answer) ∈
      (schedule cache oneAfterTheOther (start sumOfEmpty 0 [adasShare, adasOther])).shot.log := by
    rw [hlog]
    exact List.mem_append_right _ (List.mem_cons_of_mem _ hrespond)
  have hone : (schedule cache oneAfterTheOther
      (start sumOfEmpty 0 [adasShare, adasOther])).shot.log.filterMap responder = [0] := by
    with_unfolding_all rfl
  have hj : j ∈ [0] := by
    rw [← hone]
    exact List.mem_filterMap.mpr ⟨_, hmem, rfl⟩
  obtain rfl := List.mem_singleton.mp hj
  obtain rfl : r' = adasShare := by simpa using hr'.symm
  exact absurd hpath (by decide)

end recast_rules.idempotent
