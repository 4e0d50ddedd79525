import HermesA2A.UrlSafety

/-!
# The guard of the outbound path and the host that is called

`validate_target_url` takes the text of the authority up to the first colon for the
host.  A client takes user-info and brackets off, and does not tell capitals from small
letters.  The two agree on an authority without user-info and brackets, but for the case
of `localhost`; on every other authority the guard tests a text that is not the host.

* `Internal` — the hosts that must not be called.
* `Guarded` — no URL that is accepted leads to one of them.
* `Evades` — what the guard does not see through.
* `guarded_iff` — a URL is guarded exactly when it does not evade the guard.
-/

namespace HermesA2A

open IpAddress

/-- **A host that must not be called**: `localhost`, the unspecified address, or an
address in a private range. -/
def Internal (host : List Char) : Prop :=
  host = "localhost".toList ∨ host = "0.0.0.0".toList ∨ isPrivateIp host = true

/-- The URL that is accepted does not lead to an internal host. -/
def Guarded (D : CharData) (url : String) : Prop :=
  ∀ accepted, validateTargetUrl D url false = .ok accepted →
    ∀ parsed, urlsplit D accepted = .ok parsed →
      ∀ host ∈ parsed.hostname D, ¬ Internal host

/-- The texts that the guard refuses as a host. -/
def refusedHost (host : List Char) : Bool :=
  ["0.0.0.0".toList, "localhost".toList, "127.0.0.1".toList, "::1".toList].contains host ||
    isPrivateIp host

/-- **What the guard does not see through**: an internal host behind user-info or in
brackets, and `localhost` with capitals. -/
def Evades (D : CharData) (u : SplitUrl) : Prop :=
  ('@' ∈ u.netloc ∨ '[' ∈ u.netloc) ∧ (∃ host ∈ u.hostname D, Internal host) ∨
    '@' ∉ u.netloc ∧ '[' ∉ u.netloc ∧ lowerHost D (guardedHost u) = "localhost".toList

/-! ### The guard -/

section Guard

variable {D : CharData} {u : SplitUrl} {url : String}

theorem refusedHost_iff {host : List Char} : refusedHost host = true ↔
    host ∈ ["0.0.0.0".toList, "localhost".toList, "127.0.0.1".toList, "::1".toList] ∨
      isPrivateIp host = true := by
  rw [refusedHost, Bool.or_eq_true, List.contains_iff_mem]

/-- What is accepted: an http(s) URL whose text up to the first colon is not refused. -/
theorem accepts_iff {accepted : List Char} :
    validateTargetUrl D url false = .ok accepted ↔ accepted = trimUrl url ∧
      ∃ parsed, urlsplit D (trimUrl url) = .ok parsed ∧ parsed.scheme ∈ HTTP_SCHEMES ∧
        parsed.netloc ≠ [] ∧ refusedHost (guardedHost parsed) = false := by
  unfold validateTargetUrl
  dsimp only
  cases hsplit : urlsplit D (trimUrl url) with
  | error e => simp
  | ok parsed =>
      simp only [Except.ok.injEq, exists_eq_left', ← Bool.not_eq_true, refusedHost_iff, not_or,
        List.mem_cons, List.not_mem_nil, or_false, Bool.false_eq_true, if_false]
      constructor
      · intro h
        split_ifs at h with hhttp hzero hloop hprivate
        obtain ⟨hscheme, hnetloc⟩ := not_or.mp hhttp
        obtain ⟨hlocal, hloopback, hsix⟩ := not_or.mp hloop |>.imp_right not_or.mp
        exact ⟨(Except.ok.inj h).symm, not_not.mp hscheme, hnetloc,
          ⟨hzero, hlocal, hloopback, hsix⟩, hprivate⟩
      · rintro ⟨rfl, hscheme, hnetloc, ⟨hzero, hlocal, hloopback, hsix⟩, hprivate⟩
        rw [if_neg (not_or.mpr ⟨not_not.mpr hscheme, hnetloc⟩), if_neg hzero,
          if_neg (not_or.mpr ⟨hlocal, not_or.mpr ⟨hloopback, hsix⟩⟩), if_neg hprivate]

/-- A private address in lower case is refused as it was written. -/
theorem isPrivateIp_of_lowerHost {host : List Char} (hcolon : ':' ∉ host)
    (h : isPrivateIp (lowerHost D host) = true) : isPrivateIp host = true := by
  obtain ⟨ip, hip, -⟩ := (Option.any_eq_true _ _).mp h
  have hv6 : parseV6 (lowerHost D host) = none := by
    by_contra hsome
    obtain ⟨ip, hip⟩ := Option.ne_none_iff_exists'.mp hsome
    exact hcolon (colon_of_parseV6_lowerHost hip)
  have hv4 : parseV4 (lowerHost D host) ≠ none := by
    intro hnone
    rw [ipAddress, hnone, hv6] at hip
    cases hip
  obtain ⟨v4, hv4⟩ := Option.ne_none_iff_exists'.mp hv4
  rwa [eq_of_parseV4_lowerHost hv4] at h

/-- **In an authority without user-info and brackets**, the guard sees every internal host
but `localhost` with capitals. -/
theorem refused_of_internal (hat : '@' ∉ u.netloc) (hbracket : '[' ∉ u.netloc)
    {host : List Char} (hhost : host ∈ u.hostname D) (hinternal : Internal host)
    (hcase : lowerHost D (guardedHost u) ≠ "localhost".toList) :
    refusedHost (guardedHost u) = true := by
  have hlower : host = lowerHost D (guardedHost u) := by
    unfold SplitUrl.hostname at hhost
    rw [host_of_plain hat hbracket] at hhost
    split_ifs at hhost
    · cases hhost
    · exact (Option.some.inj hhost).symm
  have hcolon : ':' ∉ guardedHost u := fun hmem => by
    simpa using List.mem_takeWhile_imp hmem
  refine refusedHost_iff.mpr ?_
  rcases hinternal with hlocal | hzero | hprivate
  · exact absurd (hlower.symm.trans hlocal) hcase
  · -- the unspecified address has no letters
    have hzero' : parseV4 (lowerHost D (guardedHost u)) = some 0 := by
      rw [← hlower, hzero]
      decide +kernel
    left
    rw [← eq_of_parseV4_lowerHost hzero', ← hlower, hzero]
    exact List.mem_cons_self
  · rw [hlower] at hprivate
    exact Or.inr (isPrivateIp_of_lowerHost hcolon hprivate)

end Guard

/-- **A URL is guarded** exactly when it does not evade the guard: it is no http(s) URL, the
guard refuses the text it takes for the host, or that text hides nothing. -/
theorem guarded_iff (D : CharData) (url : String) :
    Guarded D url ↔ ∀ parsed, urlsplit D (trimUrl url) = .ok parsed →
      parsed.scheme ∈ HTTP_SCHEMES → parsed.netloc ≠ [] →
        refusedHost (guardedHost parsed) = false → ¬ Evades D parsed := by
  constructor
  · rintro h parsed hparsed hscheme hnetloc hrefused
      (⟨-, host, hhost, hinternal⟩ | ⟨hat, hbr, hcase⟩)
    · exact h _ (accepts_iff.mpr ⟨rfl, parsed, hparsed, hscheme, hnetloc, hrefused⟩) parsed hparsed
        host hhost hinternal
    · have hhost : "localhost".toList ∈ parsed.hostname D := by
        have hne : guardedHost parsed ≠ [] := by
          intro hnil
          rw [hnil, lowerHost_nil] at hcase
          cases hcase
        unfold SplitUrl.hostname
        rw [host_of_plain hat hbr]
        exact (if_neg hne).trans (congrArg some hcase)
      exact h _ (accepts_iff.mpr ⟨rfl, parsed, hparsed, hscheme, hnetloc, hrefused⟩) parsed hparsed
        _ hhost (Or.inl rfl)
  · intro h accepted haccepts parsed hparsed host hhost hinternal
    obtain ⟨rfl, parsed', hparsed', hscheme, hnetloc, hrefused⟩ := accepts_iff.mp haccepts
    obtain rfl := Except.ok.inj (hparsed.symm.trans hparsed')
    refine h parsed hparsed hscheme hnetloc hrefused ?_
    by_cases hplain : '@' ∈ parsed.netloc ∨ '[' ∈ parsed.netloc
    · exact Or.inl ⟨hplain, host, hhost, hinternal⟩
    · obtain ⟨hat, hbracket⟩ := not_or.mp hplain
      refine Or.inr ⟨hat, hbracket, ?_⟩
      by_contra hcase
      rw [refused_of_internal hat hbracket hhost hinternal hcase] at hrefused
      cases hrefused

/-- User-info is enough to reach the machine itself. -/
theorem user_info_evades : ¬ ∀ (D : CharData) (url : String), Guarded D url := by
  intro h
  have haccepts : validateTargetUrl .ascii "http://x@127.0.0.1/rpc" false =
      .ok "http://x@127.0.0.1/rpc".toList := by decide +kernel
  have hparsed : urlsplit .ascii "http://x@127.0.0.1/rpc".toList =
      .ok ⟨"http".toList, "x@127.0.0.1".toList⟩ := by decide +kernel
  have hprivate : isPrivateIp "127.0.0.1".toList = true := by decide +kernel
  refine h .ascii "http://x@127.0.0.1/rpc" _ haccepts _ hparsed "127.0.0.1".toList ?_
    (Or.inr (Or.inr hprivate))
  decide +kernel

end HermesA2A
