import HermesA2A.RateLimiter

/-!
# Clients apart

The buckets are separate, but the table has a cap: a client without a bucket takes the
place of the one that was filled longest ago.  The client that loses its bucket starts
anew with a full one, whatever it had spent, and any peer that varies its client id can
bring this about (`isolation_fails`).

Apart from that, a client is answered as if it were alone.  `Unforgotten` is the
condition: a bucket that is forgotten would have been full again when its client comes
back.  It holds of every run with no more clients than entries, whatever the clock does
(`isolated_of_few`).

The argument compares the run with the client's own, at the client's bucket only.  What
has to agree is not the bucket but what the next request makes of it (`NextAlike`).
-/

namespace HermesA2A

open TokenBucket RateLimiter

/-- A call of `allow`. -/
structure AllowCall where
  client : String
  cost : ℚ
  now : ℚ

/-- As a call of the limiter. -/
def AllowCall.call (c : AllowCall) : LimiterCall := .allow c.client c.cost c.now

/-- The answers to a run of requests. -/
def answersTo (cfg : RateLimitConfig) (calls : List AllowCall) (l : RateLimiter) :
    List LimiterAnswer :=
  answers cfg (calls.map AllowCall.call) l

/-- The requests of one client. -/
def own (client : String) (calls : List AllowCall) : List AllowCall :=
  calls.filter fun c => c.client = client

/-- The bucket of `client` that `caller` takes the place of. -/
def RateLimiter.forgets? (cfg : RateLimitConfig) (caller client : String) (l : RateLimiter) :
    Option (Bucket ℚ) :=
  if l.full cfg caller = true ∧ l.oldest? = some client then l.buckets.get? client else none

/-- Whenever a call forgets the client's bucket, the client's next request would have
found it full, and sufficient. -/
def Unforgotten (cfg : RateLimitConfig) (client : String) : List AllowCall → RateLimiter → Prop
  | [], _ => True
  | c :: calls, l =>
      (∀ b ∈ l.forgets? cfg c.client client, ∀ next ∈ (own client calls).head?,
        b.level cfg.params next.now = cfg.maxTokens ∧ next.cost ≤ cfg.maxTokens) ∧
      Unforgotten cfg client calls (l.allow cfg c.client c.cost c.now).2

instance decidableUnforgotten (cfg : RateLimitConfig) (client : String) :
    ∀ calls l, Decidable (Unforgotten cfg client calls l)
  | [], _ => isTrue trivial
  | c :: calls, l =>
      @instDecidableAnd _ _
        (inferInstanceAs (Decidable (∀ b ∈ l.forgets? cfg c.client client,
          ∀ next ∈ (own client calls).head?,
            b.level cfg.params next.now = cfg.maxTokens ∧ next.cost ≤ cfg.maxTokens)))
        (decidableUnforgotten cfg client calls _)

/-- What the client's next request makes of its bucket is the same in both limiters. -/
def NextAlike (cfg : RateLimitConfig) (client : String) (calls : List AllowCall)
    (l l' : RateLimiter) : Prop :=
  ∀ next ∈ (own client calls).head?,
    request cfg.params (l.buckets.get? client) next.now next.cost =
      request cfg.params (l'.buckets.get? client) next.now next.cost

section Isolation

variable {cfg : RateLimitConfig} {client : String} {c : AllowCall} {calls : List AllowCall}
  {l l' : RateLimiter}

theorem own_cons_self (h : c.client = client) : own client (c :: calls) = c :: own client calls :=
  List.filter_cons_of_pos (decide_eq_true h)

theorem own_cons_of_ne (h : c.client ≠ client) : own client (c :: calls) = own client calls :=
  List.filter_cons_of_neg (by simpa using h)

/-- A request of somebody else leaves the bucket alone, or forgets it. -/
theorem get?_allow_of_ne (henabled : cfg.enabled = true) (hzero : cfg.dividesByZero = false)
    (h : c.client ≠ client) :
    (l.allow cfg c.client c.cost c.now).2.buckets.get? client =
      if (l.forgets? cfg c.client client).isSome then none else l.buckets.get? client := by
  rw [get?_allow henabled hzero, if_neg (Ne.symm h), get?_makeRoom, forgets?]
  by_cases hforgets : l.full cfg c.client = true ∧ l.oldest? = some client
  · rw [if_pos hforgets, if_pos hforgets]
    cases l.buckets.get? client with
    | none => rfl
    | some b => rfl
  · rw [if_neg hforgets, if_neg hforgets]
    rfl

/-- Another client's request changes nothing for the next request, unless it forgets a
bucket that would not have been full. -/
theorem NextAlike.other (henabled : cfg.enabled = true) (hzero : cfg.dividesByZero = false)
    (hne : c.client ≠ client) (h : NextAlike cfg client (c :: calls) l l')
    (hfull : ∀ b ∈ l.forgets? cfg c.client client, ∀ next ∈ (own client calls).head?,
      b.level cfg.params next.now = cfg.maxTokens ∧ next.cost ≤ cfg.maxTokens) :
    NextAlike cfg client calls (l.allow cfg c.client c.cost c.now).2 l' := by
  intro next hnext
  have hsame := h next (by rwa [own_cons_of_ne hne])
  rw [get?_allow_of_ne henabled hzero hne]
  cases hforgets : l.forgets? cfg c.client client with
  | none => exact hsame
  | some b =>
      obtain ⟨hlevel, hcost⟩ := hfull b hforgets next hnext
      have hget : l.buckets.get? client = some b := by
        unfold forgets? at hforgets
        split_ifs at hforgets
        exact hforgets
      rw [hget] at hsame
      rw [← hsame]
      exact request_congr hcost hlevel.symm

/-- The answers to a client are those it gets alone, of a limiter that is enabled. -/
theorem answersTo_own_of_enabled (henabled : cfg.enabled = true) (hzero : cfg.dividesByZero = false)
    (h : NextAlike cfg client calls l l') (hun : Unforgotten cfg client calls l) :
    (answersTo cfg calls l).filter (fun a => a.client = client) =
      answersTo cfg (own client calls) l' := by
  induction calls generalizing l l' with
  | nil => rfl
  | cons c calls ih =>
      show List.filter _ (_ :: answersTo cfg calls (l.allow cfg c.client c.cost c.now).2) = _
      by_cases hc : c.client = client
      · subst hc
        have hsame := h c (by rw [own_cons_self rfl]; rfl)
        have hanswer : (l.allow cfg c.client c.cost c.now).1 =
            (l'.allow cfg c.client c.cost c.now).1 := by
          rw [allow_answer henabled hzero, allow_answer henabled hzero, hsame]
        have hnext : NextAlike cfg c.client calls (l.allow cfg c.client c.cost c.now).2
            (l'.allow cfg c.client c.cost c.now).2 := fun next _ => by
          rw [get?_allow henabled hzero, get?_allow henabled hzero, if_pos rfl, if_pos rfl, hsame]
        have hrest := ih hnext hun.2
        rw [List.filter_cons_of_pos (by simp), own_cons_self rfl, hanswer, hrest]
        rfl
      · rw [List.filter_cons_of_neg (by simpa using hc), own_cons_of_ne hc]
        exact ih (h.other henabled hzero hc hun.1) hun.2

/-- A limiter that does not look at its buckets answers every request alike. -/
theorem answersTo_of_const {result : Except LimiterError (Bool × ℤ)}
    (hconst : ∀ l client cost now, (allow cfg client cost now l).1 = result) :
    answersTo cfg calls l = calls.map fun c => ⟨c.client, c.now, result⟩ := by
  induction calls generalizing l with
  | nil => rfl
  | cons c calls ih =>
      show _ :: answersTo cfg calls _ = _
      rw [ih, hconst]
      rfl

theorem answersTo_own_of_const (result : Except LimiterError (Bool × ℤ))
    (hconst : ∀ l client cost now, (allow cfg client cost now l).1 = result) :
    (answersTo cfg calls l).filter (fun a => a.client = client) =
      answersTo cfg (own client calls) l' := by
  rw [answersTo_of_const hconst, answersTo_of_const hconst, List.filter_map]
  rfl

/-- **The answers to a client** are those it gets alone. -/
theorem answersTo_own (h : NextAlike cfg client calls l l')
    (hun : Unforgotten cfg client calls l) :
    (answersTo cfg calls l).filter (fun a => a.client = client) =
      answersTo cfg (own client calls) l' := by
  by_cases henabled : cfg.enabled = true
  · by_cases hzero : cfg.dividesByZero = true
    · refine answersTo_own_of_const (.error .zeroDivision) fun l client cost now => ?_
      rw [allow, if_neg (by simp [henabled]), if_pos hzero]
    · exact answersTo_own_of_enabled henabled (Bool.eq_false_iff.mpr hzero) h hun
  · refine answersTo_own_of_const (.ok (true, 0)) fun l client cost now => ?_
    rw [allow, if_pos henabled]

end Isolation

/-- **A client is answered as if it were alone**, as long as no bucket of it is forgotten
that would still not have been full. -/
theorem isolated (cfg : RateLimitConfig) (client : String) (calls : List AllowCall)
    (h : Unforgotten cfg client calls .new) :
    (answersTo cfg calls .new).filter (fun a => a.client = client) =
      answersTo cfg (own client calls) .new :=
  answersTo_own (fun _ _ => rfl) h

/-- One request a minute, for one client at a time. -/
def RateLimitConfig.narrow : RateLimitConfig := ⟨true, 1, 60, 1, 1⟩

/-- **Somebody else's request gives a client its budget back.** -/
theorem isolation_fails :
    ¬ ∀ (cfg : RateLimitConfig) (client : String) (calls : List AllowCall),
      cfg.enabled = true → 1 ≤ cfg.maxEntries →
        (answersTo cfg calls .new).filter (fun a => a.client = client) =
          answersTo cfg (own client calls) .new := by
  intro h
  have hsame := congrArg (List.map LimiterAnswer.allowed)
    (h .narrow "a" [⟨"a", 1, 0⟩, ⟨"b", 1, 0⟩, ⟨"a", 1, 0⟩] rfl le_rfl)
  revert hsame
  decide +kernel

/-- A client that comes back after two minutes may have lost its bucket. -/
theorem isolated_late :
    Unforgotten .narrow "a" [⟨"a", 1, 0⟩, ⟨"b", 1, 30⟩, ⟨"a", 1, 120⟩] .new ∧
      (answersTo .narrow [⟨"a", 1, 0⟩, ⟨"b", 1, 30⟩, ⟨"a", 1, 120⟩] .new).filter
          (fun a => a.client = "a") =
        answersTo .narrow (own "a" [⟨"a", 1, 0⟩, ⟨"b", 1, 30⟩, ⟨"a", 1, 120⟩]) .new := by
  have hun : Unforgotten .narrow "a" [⟨"a", 1, 0⟩, ⟨"b", 1, 30⟩, ⟨"a", 1, 120⟩] .new := by
    decide +kernel
  exact ⟨hun, isolated .narrow "a" _ hun⟩

/-! ### No more clients than entries -/

/-- Where every client has an entry, nothing is forgotten. -/
theorem unforgotten_of_few {cfg : RateLimitConfig} {client : String} {clients : Finset String}
    (hfew : (clients.card : ℤ) ≤ cfg.maxEntries) {calls : List AllowCall}
    (hcalls : ∀ c ∈ calls, c.client ∈ clients) {l : RateLimiter}
    (hknown : ∀ x ∈ l.buckets, x ∈ clients) : Unforgotten cfg client calls l := by
  induction calls generalizing l with
  | nil => trivial
  | cons c calls ih =>
      obtain ⟨hc, hcalls⟩ := List.forall_mem_cons.mp hcalls
      refine ⟨fun b hb => ?_, ih hcalls fun x hx => ?_⟩
      · have hroom := not_full_of_known hknown hc hfew
        rw [forgets?, hroom] at hb
        cases hb
      · rcases mem_allow hx with rfl | hx
        · exact hc
        · exact hknown x hx

/-- **With no more clients than entries**, every client is answered as if it were alone. -/
theorem isolated_of_few (cfg : RateLimitConfig) (client : String) (calls : List AllowCall)
    (hfew : ((calls.map AllowCall.client).toFinset.card : ℤ) ≤ cfg.maxEntries) :
    (answersTo cfg calls .new).filter (fun a => a.client = client) =
      answersTo cfg (own client calls) .new := by
  have hnew : ∀ x ∈ RateLimiter.new.buckets, x ∈ (calls.map AllowCall.client).toFinset :=
    fun x hx => absurd hx (OrderedDict.notMem_empty x)
  exact answersTo_own (fun _ _ => rfl)
    (unforgotten_of_few hfew (fun c hc => List.mem_toFinset.mpr (List.mem_map_of_mem hc)) hnew)

end HermesA2A
