import CcbCore.Edge.Document
import CcbCore.Library.Run
import Mathlib.Data.List.Chain

/-!
# Fetching the signing keys

`getJwks` of `supabase/functions/github-bus-ingest/handler.ts`. Requests share `jwksCache`,
`jwksFetchPromise` and `jwksLastFetchAttemptAt`, and go on in any order: a call begins, the
promise of a fetch settles, or a call goes on after the promise it waits for has settled,
while the clock never goes back. In every run at most one fetch is outstanding, two fetches
start at least `JWKS_REFRESH_FLOOR_MS` apart, keys are those of the fetch that the call
waited for or of an entry that had not expired when the call began, and no failure keeps a
later call from fetching (`jwks_fetch_discipline`).
-/

namespace CcbCore.Edge

variable {Keys E : Type}

/-- `JWKS_CACHE_TTL_MS`. -/
def jwksCacheTtlMs : ℤ := 10 * 60 * 1000

/-- `JWKS_REFRESH_FLOOR_MS`. -/
def jwksRefreshFloorMs : ℤ := 60 * 1000

/-- `jwksCache`. -/
structure JwksCache (Keys : Type) where
  expiresAt : ℤ
  keys : Keys

/-- What is thrown: an `HttpError`, or what `fetch` or `json` rejects with. -/
inductive JwksError (E : Type) where
  | http (e : HttpError)
  | rejected (e : E)

/-- What the request for `JWKS_URL` comes to. -/
inductive JwksReply (Keys E : Type) where
  /-- `fetch` or `json` rejects. -/
  | rejected (e : E)
  /-- A status that is not `ok`. -/
  | refused
  /-- Data, and its `keys` if they are an array. -/
  | answered (keys : Option Keys)

/-- What the promise settles to. -/
def JwksReply.outcome : JwksReply Keys E → Except (JwksError E) Keys
  | .rejected e => .error (.rejected e)
  | .refused => .error (.http ⟨503, "OIDC_JWKS_UNAVAILABLE"⟩)
  | .answered none => .error (.http ⟨503, "OIDC_JWKS_INVALID"⟩)
  | .answered (some keys) => .ok keys

/-- A fetch, by the time of its start, and what its promise has settled to. -/
structure JwksFetch (Keys E : Type) where
  startedAt : ℤ
  outcome : Option (Except (JwksError E) Keys)

/-- A call: the time and the entry of the cache at its start, the fetch it waits for, and what
it has come to. -/
structure JwksCall (Keys E : Type) where
  startedAt : ℤ
  found : Option (JwksCache Keys)
  awaits : Option ℕ
  outcome : Option (Except (JwksError E) Keys)

/-- The clock, the variables of the module, and the fetches and the calls so far. -/
structure Jwks (Keys E : Type) where
  clock : ℤ
  cache : Option (JwksCache Keys)
  lastFetchAttemptAt : Option ℤ
  /-- `jwksFetchPromise`, by the number of the fetch. -/
  fetchPromise : Option ℕ
  fetches : List (JwksFetch Keys E)
  calls : List (JwksCall Keys E)

namespace Jwks

/-- The module as it is loaded. -/
def loaded (clock : ℤ) : Jwks Keys E := ⟨clock, none, none, none, [], []⟩

variable (s : Jwks Keys E)

/-- `jwksCache && jwksCache.expiresAt > now`. -/
def unexpired : Option (JwksCache Keys) := s.cache.filter fun entry => s.clock < entry.expiresAt

/-- `jwksLastFetchAttemptAt !== null && now - jwksLastFetchAttemptAt < JWKS_REFRESH_FLOOR_MS`. -/
def withinFloor : Bool := s.lastFetchAttemptAt.any fun last => s.clock - last < jwksRefreshFloorMs

/-- A call that returns or throws at once. -/
def answer (outcome : Except (JwksError E) Keys) : Jwks Keys E :=
  { s with calls := s.calls ++ [⟨s.clock, s.cache, none, some outcome⟩] }

/-- A call that waits for a fetch. -/
def await (fetch : ℕ) : Jwks Keys E :=
  { s with calls := s.calls ++ [⟨s.clock, s.cache, some fetch, none⟩] }

/-- The call starts a fetch. -/
def startFetch : Jwks Keys E :=
  { s with
    lastFetchAttemptAt := some s.clock
    fetchPromise := some s.fetches.length
    fetches := s.fetches ++ [⟨s.clock, none⟩] }

/-- `getJwks`, to where it waits, returns or throws. The keys are an array, so that a call which
has waited for them returns them. -/
def getJwks (forceRefresh : Bool) : Jwks Keys E :=
  match if forceRefresh then none else s.unexpired with
  | some entry => s.answer (.ok entry.keys)
  | none =>
    match s.fetchPromise with
    | some fetch => s.await fetch
    | none =>
      if s.withinFloor then
        match s.unexpired with
        | some entry => s.answer (.ok entry.keys)
        | none => s.answer (.error (.http ⟨503, "OIDC_JWKS_UNAVAILABLE"⟩))
      else s.startFetch.await s.fetches.length

/-- The rest of a fetch, when its reply is there: the keys are cached, and the promise is
forgotten in any case. -/
def settle (fetch : ℕ) (started : JwksFetch Keys E) (reply : JwksReply Keys E) : Jwks Keys E :=
  { s with
    cache :=
      match reply.outcome with
      | .ok keys => some ⟨s.clock + jwksCacheTtlMs, keys⟩
      | .error _ => s.cache
    fetchPromise := none
    fetches := s.fetches.set fetch { started with outcome := some reply.outcome } }

/-- A fetch that has not settled. -/
def Outstanding (fetch : ℕ) : Prop := ∃ started, s.fetches[fetch]? = some started ∧ started.outcome = none

end Jwks

/-- What happens. -/
inductive JwksEvent (Keys E : Type) where
  | tick (clock : ℤ)
  | call (forceRefresh : Bool)
  | settle (fetch : ℕ) (reply : JwksReply Keys E)
  | resume (call : ℕ)

/-- A step of the clock, of a call or of a fetch. -/
inductive JwksStep (s : Jwks Keys E) : JwksEvent Keys E → Jwks Keys E → Prop where
  | tick {clock : ℤ} (forward : s.clock ≤ clock) : JwksStep s (.tick clock) { s with clock := clock }
  | call (forceRefresh : Bool) : JwksStep s (.call forceRefresh) (s.getJwks forceRefresh)
  | settle {fetch : ℕ} {started : JwksFetch Keys E} (reply : JwksReply Keys E) (fetched : s.fetches[fetch]? = some started)
      (outstanding : started.outcome = none) : JwksStep s (.settle fetch reply) (s.settle fetch started reply)
  | resume {call fetch : ℕ} {c : JwksCall Keys E} {started : JwksFetch Keys E} {outcome : Except (JwksError E) Keys}
      (called : s.calls[call]? = some c) (waiting : c.outcome = none) (awaits : c.awaits = some fetch)
      (fetched : s.fetches[fetch]? = some started) (settled : started.outcome = some outcome) :
      JwksStep s (.resume call) { s with calls := s.calls.set call { c with outcome := some outcome } }

/-! ### What every step keeps -/

namespace Jwks

/-- Where the keys that a call returns may be from. -/
def Sourced (s : Jwks Keys E) (c : JwksCall Keys E) (keys : Keys) : Prop :=
  (∃ fetch started, c.awaits = some fetch ∧ s.fetches[fetch]? = some started ∧ started.outcome = some (.ok keys)) ∨
    ∃ entry, c.found = some entry ∧ c.startedAt < entry.expiresAt ∧ entry.keys = keys

/-- What holds of the variables of the module. -/
structure Holds (s : Jwks Keys E) : Prop where
  promised : ∀ fetch : ℕ, s.Outstanding fetch ↔ s.fetchPromise = some fetch
  newest : ∀ fetch : ℕ, s.fetchPromise = some fetch → fetch + 1 = s.fetches.length
  attempted : s.lastFetchAttemptAt = s.fetches.getLast?.map JwksFetch.startedAt
  apart : (s.fetches.map JwksFetch.startedAt).IsChain fun start next => start + jwksRefreshFloorMs ≤ next
  sourced : ∀ c ∈ s.calls, ∀ keys, c.outcome = some (.ok keys) → s.Sourced c keys

variable {s t : Jwks Keys E} {e : JwksEvent Keys E} {fetch : ℕ} {c : JwksCall Keys E}

/-- What a call does at once. -/
theorem getJwks_cases (s : Jwks Keys E) (forceRefresh : Bool) :
    (∃ outcome, s.getJwks forceRefresh = s.answer outcome ∧
      ∀ keys, outcome = .ok keys → ∃ entry, s.cache = some entry ∧ s.clock < entry.expiresAt ∧ entry.keys = keys) ∨
    (∃ fetch, s.fetchPromise = some fetch ∧ s.getJwks forceRefresh = s.await fetch) ∨
    (s.fetchPromise = none ∧ s.withinFloor = false ∧
      s.getJwks forceRefresh = s.startFetch.await s.fetches.length) := by
  have hentry : ∀ entry, s.unexpired = some entry → s.cache = some entry ∧ s.clock < entry.expiresAt := by
    intro entry hentry
    obtain ⟨hcache, hexpires⟩ := Option.filter_eq_some_iff.1 hentry
    exact ⟨hcache, by simpa using hexpires⟩
  unfold getJwks
  cases hfound : (if forceRefresh then none else s.unexpired) with
  | some entry =>
    have hunexpired : s.unexpired = some entry := by
      cases forceRefresh with
      | true => simp at hfound
      | false => simpa using hfound
    obtain ⟨hcache, hexpires⟩ := hentry entry hunexpired
    refine .inl ⟨_, rfl, fun keys hkeys => ⟨entry, hcache, hexpires, ?_⟩⟩
    cases hkeys
    rfl
  | none =>
    cases hpromise : s.fetchPromise with
    | some fetch => exact .inr (.inl ⟨fetch, rfl, rfl⟩)
    | none =>
      cases hfloor : s.withinFloor with
      | false => exact .inr (.inr ⟨rfl, rfl, rfl⟩)
      | true =>
        cases hcached : s.unexpired with
        | none => exact .inl ⟨_, rfl, fun keys hkeys => nomatch hkeys⟩
        | some entry =>
          obtain ⟨hcache, hexpires⟩ := hentry entry hcached
          refine .inl ⟨_, rfl, fun keys hkeys => ⟨entry, hcache, hexpires, ?_⟩⟩
          cases hkeys
          rfl

theorem loaded_holds (clock : ℤ) : (loaded clock : Jwks Keys E).Holds :=
  ⟨by simp [loaded, Outstanding], by simp [loaded], rfl, .nil, by simp [loaded]⟩

/-- One more call. -/
theorem Holds.called (h : s.Holds) (hc : ∀ keys, c.outcome = some (.ok keys) → s.Sourced c keys) :
    Holds { s with calls := s.calls ++ [c] } := by
  refine ⟨h.promised, h.newest, h.attempted, h.apart, fun c' hc' => ?_⟩
  rcases List.mem_append.1 hc' with hold | hnew
  · exact h.sourced c' hold
  · obtain rfl := List.mem_singleton.1 hnew
    exact hc

/-- A fetch that starts where none is outstanding, and past the floor. -/
theorem Holds.startFetch (h : s.Holds) (hpromise : s.fetchPromise = none) (hfloor : s.withinFloor = false) :
    s.startFetch.Holds := by
  refine ⟨fun fetch => ?_, fun fetch hfetch => ?_, ?_, ?_, fun c hc keys hkeys => ?_⟩
  · have hnone : ¬ s.Outstanding fetch := fun hout => by simpa [hpromise] using (h.promised fetch).1 hout
    simp only [Jwks.startFetch, Outstanding, Option.some.injEq] at hnone ⊢
    constructor
    · rintro ⟨started, hstarted, hout⟩
      rw [List.getElem?_append] at hstarted
      split at hstarted
      · exact absurd ⟨started, hstarted, hout⟩ hnone
      · rw [List.getElem?_singleton] at hstarted
        split at hstarted
        · omega
        · cases hstarted
    · rintro rfl
      exact ⟨_, List.getElem?_concat_length, rfl⟩
  · obtain rfl : s.fetches.length = fetch := Option.some.inj hfetch
    simp [Jwks.startFetch]
  · simp [Jwks.startFetch]
  · simp only [Jwks.startFetch, List.map_append, List.map_singleton]
    refine List.isChain_append.2 ⟨h.apart, .singleton _, fun last hlast next hnext => ?_⟩
    obtain rfl : s.clock = next := by simpa using hnext
    rw [List.getLast?_map, ← h.attempted] at hlast
    simp only [withinFloor, Option.mem_def.1 hlast, Option.any_some, decide_eq_false_iff_not] at hfloor
    omega
  · rcases h.sourced c hc keys hkeys with ⟨fetch, started, hawaits, hstarted, hout⟩ | hfound
    · refine .inl ⟨fetch, started, hawaits, ?_, hout⟩
      simp only [Jwks.startFetch]
      rw [List.getElem?_append_left (List.getElem?_eq_some_iff.1 hstarted).1]
      exact hstarted
    · exact .inr hfound

/-- A fetch that settles is forgotten, whatever its reply. -/
theorem Holds.settle (h : s.Holds) {started : JwksFetch Keys E} (reply : JwksReply Keys E)
    (hstarted : s.fetches[fetch]? = some started) (hout : started.outcome = none) : (s.settle fetch started reply).Holds := by
  have hpromise := (h.promised fetch).1 ⟨started, hstarted, hout⟩
  obtain ⟨hlt, hget⟩ := List.getElem?_eq_some_iff.1 hstarted
  have hstart : (s.fetches.set fetch { started with outcome := some reply.outcome }).map JwksFetch.startedAt =
      s.fetches.map JwksFetch.startedAt := by
    refine List.ext_getElem? fun k => ?_
    simp only [List.getElem?_map, List.getElem?_set]
    split
    · rename_i hk
      subst hk
      simp [hlt, hget]
    · rfl
  refine ⟨fun other => ?_, (fun _ hnone => nomatch hnone), ?_, ?_, fun c hc keys hkeys => ?_⟩
  · simp only [Jwks.settle, Outstanding, reduceCtorEq, iff_false, not_exists, not_and]
    intro started' hstarted' hout'
    rw [List.getElem?_set] at hstarted'
    split at hstarted'
    · simp only [Option.some.injEq] at hstarted'
      subst hstarted'
      cases hout'
    · rename_i hne
      have := (h.promised other).1 ⟨started', hstarted', hout'⟩
      exact hne (Option.some.inj (hpromise.symm.trans this))
  · simp only [Jwks.settle]
    rw [← List.getLast?_map, hstart, List.getLast?_map]
    exact h.attempted
  · simp only [Jwks.settle, hstart]
    exact h.apart
  · rcases h.sourced c hc keys hkeys with ⟨fetch', started', hawaits, hstarted', hout'⟩ | hfound
    · refine .inl ⟨fetch', started', hawaits, ?_, hout'⟩
      simp only [Jwks.settle]
      rw [List.getElem?_set_ne, hstarted']
      rintro rfl
      obtain rfl : started = started' := Option.some.inj (hstarted.symm.trans hstarted')
      rw [hout] at hout'
      cases hout'
    · exact .inr hfound

/-- Every step keeps what holds of the variables of the module. -/
theorem Holds.step (h : s.Holds) (hstep : JwksStep s e t) : t.Holds := by
  cases hstep with
  | tick => exact ⟨h.promised, h.newest, h.attempted, h.apart, h.sourced⟩
  | call forceRefresh =>
    rcases getJwks_cases s forceRefresh with ⟨outcome, heq, hok⟩ | ⟨fetch, -, heq⟩ | ⟨hpromise, hfloor, heq⟩
    · rw [heq]
      refine h.called fun keys hkeys => ?_
      exact .inr (hok keys (Option.some.inj hkeys))
    · rw [heq]
      exact h.called fun keys hkeys => nomatch hkeys
    · rw [heq]
      exact (h.startFetch hpromise hfloor).called fun keys hkeys => nomatch hkeys
  | settle reply fetched outstanding => exact h.settle reply fetched outstanding
  | @resume call fetch c started outcome called waiting awaits fetched settled =>
    refine ⟨h.promised, h.newest, h.attempted, h.apart, fun c' hc' keys hkeys => ?_⟩
    rcases List.mem_or_eq_of_mem_set hc' with hold | rfl
    · exact h.sourced c' hold keys hkeys
    · exact .inl ⟨fetch, started, awaits, fetched, settled.trans hkeys⟩

end Jwks

open Jwks

/-- **In every run at most one fetch is outstanding, and each starts at least the floor after the
one before it; keys that a call returns are those of the fetch that it waited for, or of an
entry that had not expired when it began; and when the last fetch has settled, failed or not,
and the floor is past, a call that is forced or finds no unexpired entry starts another.** -/
theorem jwks_fetch_discipline {clock : ℤ} {es : List (JwksEvent Keys E)} {s : Jwks Keys E}
    (hrun : Run JwksStep (loaded clock) es s) :
    (∀ fetch fetch', s.Outstanding fetch → s.Outstanding fetch' → fetch = fetch') ∧
    ((s.fetches.map JwksFetch.startedAt).IsChain fun start next => start + jwksRefreshFloorMs ≤ next) ∧
    (∀ c ∈ s.calls, ∀ keys, c.outcome = some (.ok keys) → s.Sourced c keys) ∧
    ((∀ last ∈ s.fetches.getLast?, last.outcome ≠ none ∧ last.startedAt + jwksRefreshFloorMs ≤ s.clock) →
      ∀ forceRefresh, (forceRefresh = true ∨ s.unexpired = none) →
        (s.getJwks forceRefresh).fetches = s.fetches ++ [⟨s.clock, none⟩] ∧
        (s.getJwks forceRefresh).Outstanding s.fetches.length) := by
  have h : s.Holds := hrun.invariant (fun _ _ _ h hstep => h.step hstep) (loaded_holds clock)
  refine ⟨fun fetch fetch' hout hout' => ?_, h.apart, h.sourced, fun hlast forceRefresh hwants => ?_⟩
  · exact Option.some.inj (((h.promised fetch).1 hout).symm.trans ((h.promised fetch').1 hout'))
  · have hpromise : s.fetchPromise = none := by
      refine Option.eq_none_iff_forall_ne_some.2 fun fetch hfetch => ?_
      obtain ⟨started, hstarted, hout⟩ := (h.promised fetch).2 hfetch
      have hnewest : s.fetches.getLast? = some started := by
        rw [List.getLast?_eq_getElem?, ← h.newest fetch hfetch]
        exact hstarted
      exact (hlast started hnewest).1 hout
    have hfloor : s.withinFloor = false := by
      rw [withinFloor, h.attempted]
      cases hnewest : s.fetches.getLast? with
      | none => rfl
      | some last =>
        have := (hlast last hnewest).2
        simp only [Option.map_some, Option.any_some, decide_eq_false_iff_not]
        omega
    have hnone : (if forceRefresh then none else s.unexpired) = none := by
      rcases hwants with rfl | hunexpired
      · rfl
      · rw [hunexpired, ite_self]
    have heq : s.getJwks forceRefresh = s.startFetch.await s.fetches.length := by
      simp only [getJwks, hnone, hpromise, hfloor, Bool.false_eq_true, if_false]
    rw [heq]
    exact ⟨rfl, _, List.getElem?_concat_length, rfl⟩

/-- A fetch fails, and a minute later a call starts another. -/
theorem jwks_fetch_discipline_sample :
    ∃ s : Jwks ℕ String, Run JwksStep (loaded 0) [.call false, .settle 0 .refused, .tick 60000] s ∧
      (s.getJwks false).fetches.map JwksFetch.startedAt = [0, 60000] := by
  have hcall : JwksStep (loaded 0 : Jwks ℕ String) (.call false)
      ⟨0, none, some 0, some 0, [⟨0, none⟩], [⟨0, none, some 0, none⟩]⟩ := .call false
  have hsettle : JwksStep (⟨0, none, some 0, some 0, [⟨0, none⟩], [⟨0, none, some 0, none⟩]⟩ : Jwks ℕ String)
      (.settle 0 .refused) ⟨0, none, some 0, none, [⟨0, some (.error (.http ⟨503, "OIDC_JWKS_UNAVAILABLE"⟩))⟩],
        [⟨0, none, some 0, none⟩]⟩ :=
    @JwksStep.settle _ _ _ 0 ⟨0, none⟩ .refused rfl rfl
  have hrun := ((Run.single hcall).snoc hsettle).snoc (.tick (show (0 : ℤ) ≤ 60000 by decide))
  refine ⟨_, hrun, ?_⟩
  rw [((jwks_fetch_discipline hrun).2.2.2 (by decide) false (.inr rfl)).1]
  rfl

end CcbCore.Edge
