/-
FreshTag/Proofs/Settings/Rules.lean

The rules that settings keep.  There are ten, in the order in which they are
checked, and each is about one setting (`Rule.all`, `Rule.setting`).  Entries
that are well-typed are accepted exactly if they keep all of the rules, else the
first one that they break is named with its reason.  Settings that are accepted
are those of the entries (`AsGiven`) and safe for whoever uses them (`Safe`):
`settings_are_safe_or_refused`.

`Judged rules e result P` says this of a part of the checks.  Parts that follow
each other are judged by the rules of both (`Judged.bind`).
-/
import FreshTag.Cache.Basic
import FreshTag.Proofs.Text.Trimming
import FreshTag.Settings.Basic

namespace FreshTag

namespace Settings

/-! ### What is given -/

/-- The entries that the layers give, if they are of the types of their settings. -/
def Layers.given (l : Layers) : Except Unusable Entries :=
  l.combined >>= Entries.ofValue

theorem load_of_given {layers : Layers} {given : Entries} (h : layers.given = .ok given)
    (overrides : Entries) :
    load layers overrides = (ofEntries (overrides.overriding given)).mapError .invalid := by
  unfold Layers.given at h
  unfold load
  rcases hroot : layers.combined with cause | root
  · rw [hroot] at h
    cases h
  · rw [hroot] at h
    have hentries : Entries.ofValue root = .ok given := h
    simp only [hentries]
    rcases ofEntries (overrides.overriding given) with cause | s <;> rfl

theorem load_of_unusable {layers : Layers} {cause : Unusable} (h : layers.given = .error cause)
    (overrides : Entries) : load layers overrides = .error (.unusable cause) := by
  unfold Layers.given at h
  unfold load
  rcases hroot : layers.combined with other | root
  · rw [hroot] at h
    cases h
    rfl
  · rw [hroot] at h
    have hentries : Entries.ofValue root = .error cause := h
    simp only [hentries]

/-! ### Rules -/

/-- A rule for settings. -/
inductive Rule where
  | levelKnown
  | connectionsPositive
  | kindKnown
  | addressGiven
  | poolPositive
  | timeoutPositive
  | prefixGiven
  | schemaGiven
  | waitPositive
  | pageFits
  deriving DecidableEq, Repr

/-- The entries ask for a shared cache. -/
def Entries.asksForServer (e : Entries) : Bool :=
  e.cacheKind.any fun kind => CacheKind.ofText kind matches .ok .redis

/-- The text has something in it but space. -/
def hasContent (s : String) : Bool :=
  Text.trim s != ""

namespace Rule

/-- The rules, in the order in which they are checked. -/
def all : List Rule :=
  [.levelKnown, .connectionsPositive, .kindKnown, .addressGiven, .poolPositive, .timeoutPositive,
   .prefixGiven, .schemaGiven, .waitPositive, .pageFits]

theorem mem_all (r : Rule) : r ∈ all := by
  cases r <;> decide

/-- The setting that a rule is about. -/
def setting : Rule → String
  | .levelKnown => "logging.level"
  | .connectionsPositive => "database.max_connections"
  | .kindKnown => "cache.kind"
  | .addressGiven => "cache.redis_url"
  | .poolPositive => "cache.redis_pool_size"
  | .timeoutPositive => "cache.redis_timeout_ms"
  | .prefixGiven => "cache.redis_key_prefix"
  | .schemaGiven => "listener.temp_schema"
  | .waitPositive => "listener.wait_timeout_ms"
  | .pageFits => "listener.chunk_size"

/-- The entries keep a rule.  Those that are not given keep it, but for the address of the server
that a shared cache needs. -/
def kept (e : Entries) : Rule → Bool
  | .levelKnown => e.logLevel.all fun level => (threshold? level).isSome
  | .connectionsPositive => e.maxConnections.all (0 < ·)
  | .kindKnown => e.cacheKind.all fun kind => (CacheKind.ofText kind).isOk
  | .addressGiven => !e.asksForServer || e.redisUrl.any hasContent
  | .poolPositive => e.redisPoolSize.all (0 < ·)
  | .timeoutPositive => e.redisTimeout.all (0 < ·)
  | .prefixGiven => e.redisKeyPrefix.all hasContent
  | .schemaGiven => e.schema.all hasContent
  | .waitPositive => e.waitMilliseconds.all (0 < ·)
  | .pageFits => e.chunk.all fun n => 1 ≤ n && n ≤ 1800

/-- What is said where the entries break a rule. -/
def reason (e : Entries) : Rule → String
  | .levelKnown => unknownLevel
  | .kindKnown => CacheKind.unknownMessage (Text.lowerAscii (Text.trim (e.cacheKind.getD "")))
  | .addressGiven => "required when cache.kind is redis"
  | .prefixGiven | .schemaGiven => "must not be empty"
  | .pageFits =>
    if e.chunk = some 0 then "must be greater than zero"
    else "must be at most 1800 to fit one notification"
  | _ => "must be greater than zero"

/-- The refusal that names a rule. -/
def refusal (e : Entries) (r : Rule) : Invalid :=
  ⟨r.setting, r.reason e⟩

end Rule

/-- The first rule that the entries break. -/
def Entries.firstBroken (e : Entries) : Option Rule :=
  Rule.all.find? fun r => !r.kept e

/-! ### What the entries ask for -/

/-- A text that is given, without the space around it, unless it is blank. -/
def contentOf (s? : Option String) : Option String :=
  (s?.map Text.trim).filter (· ≠ "")

theorem bind_nonBlank? (s? : Option String) : s?.bind Text.nonBlank? = contentOf s? := by
  rcases s? with - | s
  · rfl
  · by_cases h : Text.trim s = "" <;> simp [contentOf, Option.filter, Text.nonBlank?, h]

theorem tidy_of_contentOf {s? : Option String} {t : String} (h : contentOf s? = some t) :
    Text.Tidy t :=
  Text.tidy_of_bind ((bind_nonBlank? s?).trans h)

/-- The settings of the log are those of the entries. -/
structure Logging.AsGiven (e : Entries) (l : Logging) : Prop where
  threshold : threshold? (e.logLevel.getD "info") = some l.threshold
  form : l.form = .json ↔ e.logJson = some true

/-- The settings of the database are those of the entries. -/
structure DatabaseAccess.AsGiven (e : Entries) (a : DatabaseAccess) : Prop where
  url : a.url = contentOf e.databaseUrl
  maxConnections : a.maxConnections = e.maxConnections.getD 8

/-- The settings of the cache are those of the entries. -/
structure Caching.AsGiven (e : Entries) (c : Caching) : Prop where
  kind : CacheKind.ofText (e.cacheKind.getD "disabled") = .ok c.kind
  naiveCapacity : c.naiveCapacity = e.naiveCapacity.getD 1000
  redisUrl : c.redisUrl = contentOf e.redisUrl
  redisPassword : c.redisPassword = contentOf e.redisPassword
  redisPoolSize : c.redisPoolSize = e.redisPoolSize.getD 8
  redisTimeout : c.redisTimeout = e.redisTimeout.getD 2000
  redisKeyPrefix : c.redisKeyPrefix = Text.trim (e.redisKeyPrefix.getD "featuretag")

/-- The settings of the listener are those of the entries. -/
structure ListenerAsGiven (e : Entries) (c : Listener.Config) : Prop where
  schema : c.schema = Text.trim (e.schema.getD "featuretag_cdc")
  waitMilliseconds : c.waitMilliseconds = e.waitMilliseconds.getD 5000
  chunk : c.chunk = e.chunk.getD 1000

/-- The settings are those of the entries, with a default for each that is not given. -/
structure AsGiven (e : Entries) (s : Settings) : Prop where
  logging : s.logging.AsGiven e
  database : s.database.AsGiven e
  cache : s.cache.AsGiven e
  listenerEnabled : s.listenerEnabled = e.listenerEnabled.getD true
  listener : ListenerAsGiven e s.listener
  included : s.included = e.included.getD []
  excluded : s.excluded = e.excluded.getD []

/-! ### Parts of the checks -/

/-- The result of a part of the checks: it has the property, unless a rule is broken, of which the
first one is named. -/
def Judged {α : Type} (rules : List Rule) (e : Entries) (result : Except Invalid α)
    (P : α → Prop) : Prop :=
  match rules.find? fun r => !r.kept e with
  | some r => result = .error (r.refusal e)
  | none => ∃ x, result = .ok x ∧ P x

namespace Judged

variable {α β : Type} {e : Entries} {P : α → Prop} {Q : β → Prop}

theorem ok {x : α} (h : P x) : Judged [] e (.ok x) P :=
  ⟨x, rfl, h⟩

theorem one {r : Rule} {result : Except Invalid α}
    (hkept : r.kept e = true → ∃ x, result = .ok x ∧ P x)
    (hbroken : r.kept e = false → result = .error (r.refusal e)) : Judged [r] e result P := by
  unfold Judged
  rcases h : r.kept e with - | -
  · simpa [h] using hbroken h
  · simpa [h] using hkept h

theorem bind {rules : List Rule} {result : Except Invalid α} {f : α → Except Invalid β}
    (h : Judged rules e result P) (rules' : List Rule) (hf : ∀ x, P x → Judged rules' e (f x) Q) :
    Judged (rules ++ rules') e (result >>= f) Q := by
  unfold Judged at h
  rcases hfind : rules.find? fun r => !r.kept e with - | r
  · simp only [hfind] at h
    obtain ⟨x, rfl, hx⟩ := h
    have hrest := hf x hx
    unfold Judged at hrest ⊢
    rw [List.find?_append, hfind, Option.none_or]
    exact hrest
  · simp only [hfind] at h
    unfold Judged
    rw [List.find?_append, hfind, h]
    rfl

/-- A number that is not 0, with a default that is not. -/
theorem positive {r : Rule} {n? : Option Nat} {default : Nat} (hdefault : 0 < default)
    (hkept : r.kept e = n?.all (0 < ·)) (hreason : r.reason e = "must be greater than zero") :
    Judged [r] e (Settings.positive r.setting (n?.getD default))
      fun n => n = n?.getD default ∧ 0 < n := by
  unfold Settings.positive
  refine one (fun h => ⟨n?.getD default, if_neg ?_, rfl, ?_⟩) fun h => ?_
  all_goals rw [hkept] at h
  all_goals rcases n? with - | n
  all_goals simp_all [refuse, Rule.refusal]
  all_goals omega

/-- A refusal on the way, under the condition that a rule is broken. -/
theorem guard {r : Rule} {rules : List Rule} {p : Prop} [Decidable p] {setting reason : String}
    {rest : Except Invalid β} (hp : p ↔ r.kept e = false)
    (hrefusal : r.refusal e = ⟨setting, reason⟩) (hrest : ¬p → Judged rules e rest Q) :
    Judged (r :: rules) e
      (if p then refuse setting reason >>= fun _ : PUnit => rest else rest) Q := by
  have hone : Judged [r] e (if p then refuse setting reason else pure PUnit.unit) fun _ => ¬p := by
    refine one (fun h => ?_) fun h => ?_
    · have hnot : ¬p := fun hp' => Bool.false_ne_true ((hp.mp hp').symm.trans h)
      exact ⟨PUnit.unit, if_neg hnot, hnot⟩
    · rw [if_pos (hp.mpr h), hrefusal]
      rfl
  have hboth := hone.bind (f := fun _ => rest) rules fun _ => hrest
  by_cases h : p
  · rwa [if_pos h] at hboth ⊢
  · rwa [if_neg h] at hboth ⊢

/-- A text that is not blank, with a default that is not. -/
theorem nonBlank {r : Rule} {s? : Option String} {default : String}
    (hdefault : Text.trim default ≠ "") (hkept : r.kept e = s?.all hasContent)
    (hreason : r.reason e = "must not be empty") :
    Judged [r] e (Settings.nonBlank r.setting (s?.getD default))
      fun s => s = Text.trim (s?.getD default) ∧ Text.Tidy s := by
  unfold Settings.nonBlank
  refine one (fun h => ?_) fun h => ?_
  · have hne : Text.trim (s?.getD default) ≠ "" := by
      rw [hkept] at h
      rcases s? with - | s
      · exact hdefault
      · simpa [hasContent] using h
    rw [Text.nonBlank?_of_ne hne]
    exact ⟨_, rfl, rfl, Text.tidy_trim hne⟩
  · have hblank : Text.trim (s?.getD default) = "" := by
      rw [hkept] at h
      rcases s? with - | s
      · cases h
      · simpa [hasContent] using h
    rw [Text.nonBlank?_of_blank hblank, Rule.refusal, hreason]
    rfl

end Judged

/-! ### Sections -/

theorem judged_loggingOf (e : Entries) :
    Judged [.levelKnown] e (loggingOf e) (Logging.AsGiven e) := by
  have hform : (if e.logJson.getD false = true then LogForm.json else .compact) = .json ↔
      e.logJson = some true := by
    rcases e.logJson with - | - | - <;> decide
  refine .one (fun h => ?_) fun h => ?_
  · rcases hlevel : e.logLevel with - | level
    · refine ⟨_, by simp [loggingOf, hlevel]; rfl, ?_, hform⟩
      rw [hlevel]
      rfl
    · obtain ⟨threshold, hthreshold⟩ : ∃ threshold, threshold? level = some threshold := by
        simpa [Rule.kept, hlevel, Option.isSome_iff_exists] using h
      refine ⟨_, by simp [loggingOf, hlevel, hthreshold]; rfl, ?_, hform⟩
      rw [hlevel]
      exact hthreshold
  · rcases hlevel : e.logLevel with - | level
    · simp [Rule.kept, hlevel] at h
    · have hthreshold : threshold? level = none := by
        simpa [Rule.kept, hlevel] using h
      simp only [loggingOf, hlevel, hthreshold]
      rfl

theorem judged_databaseOf (e : Entries) :
    Judged [.connectionsPositive] e (databaseOf e) fun access =>
      access.AsGiven e ∧ 0 < access.maxConnections := by
  unfold databaseOf
  refine (Judged.positive (r := .connectionsPositive) (by decide) rfl rfl).bind
    [] fun maxConnections hconnections => ?_
  exact .ok ⟨⟨bind_nonBlank? e.databaseUrl, hconnections.1⟩, hconnections.2⟩

theorem eq_lowerAscii_of_ofText {text unknown : String}
    (h : CacheKind.ofText text = .error unknown) : unknown = Text.lowerAscii (Text.trim text) := by
  unfold CacheKind.ofText at h
  generalize Text.lowerAscii (Text.trim text) = word at h
  split at h
  all_goals first
    | exact (Except.error.inj h).symm
    | exact nomatch h

theorem judged_kindOf (e : Entries) :
    Judged [.kindKnown] e (kindOf e)
      fun kind => CacheKind.ofText (e.cacheKind.getD "disabled") = .ok kind := by
  unfold kindOf
  refine .one (fun h => ?_) fun h => ?_
  · rcases hkind : e.cacheKind with - | text
    · exact ⟨.disabled, rfl, rfl⟩
    · simp only [Rule.kept, hkind, Option.all_some] at h
      simp only [Option.getD_some]
      rcases hof : CacheKind.ofText text with unknown | kind
      · rw [hof] at h
        cases h
      · exact ⟨kind, rfl, rfl⟩
  · rcases hkind : e.cacheKind with - | text
    · simp [Rule.kept, hkind] at h
    · simp only [Rule.kept, hkind, Option.all_some] at h
      simp only [Option.getD_some]
      rcases hof : CacheKind.ofText text with unknown | kind
      · simp only [Rule.refusal, Rule.reason, hkind]
        rw [eq_lowerAscii_of_ofText hof]
        rfl
      · rw [hof] at h
        cases h

theorem asksForServer_iff {e : Entries} {kind : CacheKind}
    (h : CacheKind.ofText (e.cacheKind.getD "disabled") = .ok kind) :
    kind = .redis ↔ e.asksForServer = true := by
  rcases hkind : e.cacheKind with - | text
  · rw [hkind] at h
    obtain rfl : CacheKind.disabled = kind := Except.ok.inj h
    simp [Entries.asksForServer, hkind]
  · rw [hkind, Option.getD_some] at h
    cases kind <;> simp [Entries.asksForServer, hkind, h]

/-- The settings of a cache are safe: a shared one has an address. -/
structure Caching.Safe (c : Caching) : Prop where
  addressed : c.kind = .redis → c.redisUrl ≠ none
  positive : 0 < c.redisPoolSize ∧ 0 < c.redisTimeout
  redisUrl : ∀ url, c.redisUrl = some url → Text.Tidy url
  redisPassword : ∀ password, c.redisPassword = some password → Text.Tidy password
  redisKeyPrefix : Text.Tidy c.redisKeyPrefix

theorem not_addressGiven_iff (e : Entries) :
    e.asksForServer = true ∧ e.redisUrl.bind Text.nonBlank? = none ↔
      Rule.kept e .addressGiven = false := by
  simp only [Rule.kept, Bool.or_eq_false_iff, Bool.not_eq_false']
  refine and_congr_right fun _ => ?_
  rcases e.redisUrl with - | url
  · simp
  · simp [hasContent, Text.nonBlank?]

theorem judged_cacheOf (e : Entries) :
    Judged [.kindKnown, .addressGiven, .poolPositive, .timeoutPositive, .prefixGiven] e
      (cacheOf e) fun c => c.AsGiven e ∧ c.Safe := by
  unfold cacheOf
  refine (judged_kindOf e).bind
    [.addressGiven, .poolPositive, .timeoutPositive, .prefixGiven] fun kind hkind => ?_
  dsimp only
  refine .guard ?_ rfl fun haddress => ?_
  · rw [asksForServer_iff hkind]
    exact not_addressGiven_iff e
  refine (Judged.positive (r := .poolPositive) (by decide) rfl rfl).bind
    [.timeoutPositive, .prefixGiven] fun poolSize hpool => ?_
  refine (Judged.positive (r := .timeoutPositive) (by decide) rfl rfl).bind
    [.prefixGiven] fun timeout htimeout => ?_
  refine (Judged.nonBlank (r := .prefixGiven) (by decide) rfl rfl).bind
    [] fun keyPrefix hprefix => ?_
  have hgiven : Caching.AsGiven e
      { kind, naiveCapacity := e.naiveCapacity.getD 1000
        redisUrl := e.redisUrl.bind Text.nonBlank?
        redisPassword := e.redisPassword.bind Text.nonBlank?
        redisPoolSize := poolSize, redisTimeout := timeout, redisKeyPrefix := keyPrefix } :=
    { kind := hkind
      naiveCapacity := rfl
      redisUrl := bind_nonBlank? e.redisUrl
      redisPassword := bind_nonBlank? e.redisPassword
      redisPoolSize := hpool.1
      redisTimeout := htimeout.1
      redisKeyPrefix := hprefix.1 }
  exact .ok ⟨hgiven, {
    addressed := fun hredis hnone => haddress ⟨hredis, hnone⟩
    positive := ⟨hpool.2, htimeout.2⟩
    redisUrl := fun url => Text.tidy_of_bind
    redisPassword := fun url => Text.tidy_of_bind
    redisKeyPrefix := hprefix.2 }⟩

/-- The page size is checked at both ends of its range, and each end has a reason of its own. -/
theorem judged_chunk {α : Type} {Q : α → Prop} (e : Entries) {result : Nat → Except Invalid α}
    (h : 1 ≤ e.chunk.getD 1000 → e.chunk.getD 1000 ≤ 1800 →
      ∃ x, result (e.chunk.getD 1000) = .ok x ∧ Q x) :
    Judged [.pageFits] e
      (positive "listener.chunk_size" (e.chunk.getD 1000) >>= fun chunk =>
        if Database.greatestChunk < chunk then
          refuse "listener.chunk_size"
            ("must be at most " ++ toString Database.greatestChunk ++
              " to fit one notification") >>= fun _ : PUnit => result chunk
        else result chunk) Q := by
  refine .one (fun hkept => ?_) fun hbroken => ?_
  · have hfits : 1 ≤ e.chunk.getD 1000 ∧ e.chunk.getD 1000 ≤ 1800 := by
      rcases hchunk : e.chunk with - | chunk
      · decide
      · simpa [Rule.kept, hchunk] using hkept
    obtain ⟨x, hx, hQ⟩ := h hfits.1 hfits.2
    have hpositive : e.chunk.getD 1000 ≠ 0 := by omega
    have hsmall : ¬Database.greatestChunk < e.chunk.getD 1000 := Nat.not_lt.mpr hfits.2
    rw [positive, if_neg hpositive]
    exact ⟨x, (if_neg hsmall).trans hx, hQ⟩
  · rcases hchunk : e.chunk with - | chunk
    · simp [Rule.kept, hchunk] at hbroken
    · rw [Option.getD_some, positive]
      rcases Nat.eq_zero_or_pos chunk with rfl | hpositive
      · simp only [Rule.refusal, Rule.reason, hchunk]
        rfl
      · have hgreat : Database.greatestChunk < chunk := by
          simp [Rule.kept, hchunk] at hbroken
          exact hbroken hpositive
        have hne : chunk ≠ 0 := Nat.pos_iff_ne_zero.mp hpositive
        have hreason :
            Rule.reason e .pageFits = "must be at most 1800 to fit one notification" := by
          simp [Rule.reason, hchunk, hne]
        rw [if_neg hne, Rule.refusal, hreason]
        exact if_pos hgreat

theorem judged_listenerOf (e : Entries) :
    Judged [.schemaGiven, .waitPositive, .pageFits] e (listenerOf e) fun c =>
      ListenerAsGiven e c ∧ Text.Tidy c.schema ∧ 0 < c.waitMilliseconds ∧
        1 ≤ c.chunk ∧ c.chunk ≤ 1800 := by
  unfold listenerOf
  refine (Judged.nonBlank (r := .schemaGiven) (by decide) rfl rfl).bind
    [.waitPositive, .pageFits] fun schema hschema => ?_
  refine (Judged.positive (r := .waitPositive) (by decide) rfl rfl).bind
    [.pageFits] fun wait hwait => ?_
  exact judged_chunk e fun hpositive hfits =>
    ⟨_, rfl, ⟨hschema.1, hwait.1, rfl⟩, hschema.2, hwait.2, hpositive, hfits⟩

/-! ### All rules -/

/-- The settings that the entries ask for are safe for whoever uses them. -/
structure Safe (e : Entries) (s : Settings) : Prop where
  /-- opening the cache never lacks a server -/
  served : ∀ server, Cache.create s.cache.kind (s.cache.redis.map fun a => (a.keyPrefix, server)) ≠
    .error .missingServer
  /-- the trigger function cuts pages of the size that the entries ask for -/
  paged : ∀ schema, Database.createFunction schema s.listener.chunk =
    "CREATE OR REPLACE FUNCTION " ++ Database.functionCall schema ++ Database.functionStart ++
      toString (e.chunk.getD 1000) ++ Database.functionPaging ++ Database.channel ++
      Database.functionEnd
  positive : 0 < s.database.maxConnections ∧ 0 < s.cache.redisPoolSize ∧
    0 < s.cache.redisTimeout ∧ 0 < s.listener.waitMilliseconds ∧ 0 < s.listener.chunk
  databaseUrl : ∀ url, s.database.url = some url → Text.Tidy url
  redisUrl : ∀ url, s.cache.redisUrl = some url → Text.Tidy url
  redisPassword : ∀ password, s.cache.redisPassword = some password → Text.Tidy password
  redisKeyPrefix : Text.Tidy s.cache.redisKeyPrefix
  schema : Text.Tidy s.listener.schema

theorem create_ne_missingServer {c : Caching} (h : c.Safe) (server : Redis.Server) :
    Cache.create c.kind (c.redis.map fun a => (a.keyPrefix, server)) ≠ .error .missingServer := by
  unfold Cache.create
  rcases hkind : c.kind with - | - | -
  · exact nofun
  · exact nofun
  · obtain ⟨url, hurl⟩ := Option.ne_none_iff_exists'.mp (h.addressed hkind)
    simp only [Caching.redis, hurl, Option.map_some, Cache.connect]
    rcases Cache.SharedStore.reach.run server with ⟨- | -, -⟩
    · exact nofun
    · exact nofun

theorem createFunction_of_fits (schema : String) {chunk : Nat} (hpositive : 1 ≤ chunk)
    (hfits : chunk ≤ Database.greatestChunk) :
    Database.createFunction schema chunk =
      "CREATE OR REPLACE FUNCTION " ++ Database.functionCall schema ++ Database.functionStart ++
        toString chunk ++ Database.functionPaging ++ Database.channel ++ Database.functionEnd := by
  unfold Database.createFunction
  rw [Database.clampChunk_eq hpositive hfits]

theorem judged_ofEntries (e : Entries) :
    Judged Rule.all e (ofEntries e) fun s => s.AsGiven e ∧ s.Safe e := by
  unfold ofEntries
  refine (judged_loggingOf e).bind (Rule.all.drop 1) fun logging hlogging => ?_
  refine (judged_databaseOf e).bind (Rule.all.drop 2) fun database hdatabase => ?_
  refine (judged_cacheOf e).bind (Rule.all.drop 7) fun cache hcache => ?_
  refine (judged_listenerOf e).bind [] fun listener hlistener => ?_
  obtain ⟨hconnected, hconnections⟩ := hdatabase
  obtain ⟨hcached, hcache⟩ := hcache
  obtain ⟨hwatched, hschema, hwait, hpositive, hfits⟩ := hlistener
  have hgiven : AsGiven e
      { logging, database, cache, listenerEnabled := e.listenerEnabled.getD true, listener
        included := e.included.getD [], excluded := e.excluded.getD [] } :=
    ⟨hlogging, hconnected, hcached, rfl, hwatched, rfl, rfl⟩
  refine .ok ⟨hgiven, {
    served := create_ne_missingServer hcache
    paged := fun schema => ?_
    positive := ⟨hconnections, hcache.positive.1, hcache.positive.2, hwait, hpositive⟩
    databaseUrl := fun url hurl => tidy_of_contentOf (hconnected.url.symm.trans hurl)
    redisUrl := hcache.redisUrl
    redisPassword := hcache.redisPassword
    redisKeyPrefix := hcache.redisKeyPrefix
    schema := hschema }⟩
  rw [← hwatched.chunk]
  exact createFunction_of_fits schema hpositive hfits

theorem Entries.firstBroken_eq_none_iff {e : Entries} :
    e.firstBroken = none ↔ ∀ r, Rule.kept e r = true := by
  simp [firstBroken, List.find?_eq_none, Rule.mem_all]

theorem ofEntries_of_unbroken {e : Entries} (h : e.firstBroken = none) :
    ∃ s, ofEntries e = .ok s ∧ s.AsGiven e ∧ s.Safe e := by
  have hjudged := judged_ofEntries e
  unfold Judged at hjudged
  unfold Entries.firstBroken at h
  rwa [h] at hjudged

theorem ofEntries_of_broken {e : Entries} {r : Rule} (h : e.firstBroken = some r) :
    ofEntries e = .error (r.refusal e) := by
  have hjudged := judged_ofEntries e
  unfold Judged at hjudged
  unfold Entries.firstBroken at h
  rwa [h] at hjudged

/-- Whatever the layers and the arguments, as long as each setting is of its type: there are
settings exactly if no rule is broken, and then they are those of the entries, and safe for whoever
uses them.  Else the first rule that is broken is named with its setting. -/
theorem settings_are_safe_or_refused (layers : Layers) (overrides : Entries) {given : Entries}
    (h : layers.given = .ok given) :
    ((∃ s, load layers overrides = .ok s) ↔
        ∀ r, Rule.kept (overrides.overriding given) r = true) ∧
      (∀ r, (overrides.overriding given).firstBroken = some r →
        load layers overrides = .error (.invalid (r.refusal (overrides.overriding given)))) ∧
      ∀ s, load layers overrides = .ok s →
        s.AsGiven (overrides.overriding given) ∧ s.Safe (overrides.overriding given) := by
  rw [← Entries.firstBroken_eq_none_iff]
  rcases hfirst : (overrides.overriding given).firstBroken with - | r
  · obtain ⟨s, hs, haccepted⟩ := ofEntries_of_unbroken hfirst
    have hload : load layers overrides = .ok s := by
      rw [load_of_given h, hs]
      rfl
    rw [hload]
    refine ⟨⟨fun _ => rfl, fun _ => ⟨s, rfl⟩⟩, nofun, ?_⟩
    rintro _ ⟨⟩
    exact haccepted
  · have hload : load layers overrides =
        .error (.invalid (r.refusal (overrides.overriding given))) := by
      rw [load_of_given h, ofEntries_of_broken hfirst]
      rfl
    have hnot : ∀ s, load layers overrides ≠ .ok s := by simp [hload]
    refine ⟨⟨fun ⟨s, hs⟩ => absurd hs (hnot s), nofun⟩, ?_, fun s hs => absurd hs (hnot s)⟩
    rintro _ ⟨⟩
    exact hload

/-- A file asks for a shared cache, and another one says where it is. -/
def sharedCache : Layers where
  base := .content (.object [("cache", .object [("kind", .string "redis")])])
  site := .content (.object [("cache", .object [("redis_url", .string " redis://cache ")])])

theorem given_sharedCache :
    sharedCache.given =
      .ok { cacheKind := some "redis", redisUrl := some " redis://cache " } := rfl

/-- The shared cache is safe, and its address is the one of the file without the spaces around it,
but without an address it is refused. -/
theorem settings_are_safe_or_refused_shared :
    (∃ s, load sharedCache {} = .ok s ∧
        s.Safe { cacheKind := some "redis", redisUrl := some " redis://cache " } ∧
        s.cache.redisUrl = some "redis://cache" ∧ s.listener.chunk = 1000) ∧
      load sharedCache { redisUrl := some " " } =
        .error (.invalid ⟨"cache.redis_url", "required when cache.kind is redis"⟩) := by
  obtain ⟨⟨-, haccepted⟩, -, hsettings⟩ :=
    settings_are_safe_or_refused sharedCache {} given_sharedCache
  obtain ⟨-, hrefused, -⟩ :=
    settings_are_safe_or_refused sharedCache { redisUrl := some " " } given_sharedCache
  obtain ⟨s, hs⟩ := haccepted fun r => by cases r <;> decide
  obtain ⟨hgiven, hsafe⟩ := hsettings s hs
  have hurl : contentOf (some " redis://cache ") = some "redis://cache" := by decide
  exact ⟨⟨s, hs, hsafe, hgiven.cache.redisUrl.trans hurl, hgiven.listener.chunk⟩,
    hrefused .addressGiven (by decide)⟩

end Settings

end FreshTag
