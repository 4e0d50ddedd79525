import HermesA2A.UrlSafety

/-!
# The check of a webhook's address

`is_safe_url` looks the host up, unless it begins with a digit or there is none.  A host
that begins with a digit need not be an address: the resolver also knows the short and
the decimal forms of one, and names that begin so.  And where the URL has no host, the
check takes some other text of the authority for it, or nothing at all.

* `Vetted` — what an accepted URL should have: a host that resolves to a public address.
* `SkipsLookup` — where the lookup is skipped and would not have passed.
* `vetted_iff` — a URL is vetted exactly when no such thing is let through;
  `vetted_of_validateWebhookEndpoint` says it of webhooks.
-/

namespace HermesA2A

open IpAddress

/-- The URL's host resolves to an address that is public and no metadata host. -/
def ResolvesToPublic (D : CharData) (r : Resolver) (parsed : SplitUrl) : Prop :=
  ∃ host ∈ parsed.hostname D, ∃ ip ∈ r.resolve host,
    isPrivate (.v4 ip) = false ∧ toText ip ∉ METADATA_HOSTS

/-- **A URL that is accepted** is an http(s) URL, and its host resolves to a public
address. -/
def Vetted (D : CharData) (r : Resolver) (url : String) : Prop :=
  isSafeUrl D r url = .ok true → ∃ parsed, urlsplit D url.toList = .ok parsed ∧
    parsed.scheme ∈ HTTP_SCHEMES ∧ ResolvesToPublic D r parsed

/-- **The lookup is skipped**: there is no host, and what is taken for one passes; or the
host begins with a digit, is no dotted quad, and does not resolve to a public address. -/
def SkipsLookup (D : CharData) (r : Resolver) (parsed : SplitUrl) : Prop :=
  parsed.hostname D = none ∧ passesLookup D r (checkedHost D parsed) = true ∨
    ∃ host ∈ parsed.hostname D, (∃ first ∈ host.head?, D.isDigit first = true) ∧
      parseV4 host = none ∧ ¬ ∃ ip ∈ r.resolve host, isPrivate (.v4 ip) = false

section Check

variable {D : CharData} {r : Resolver} {parsed : SplitUrl} {url : String}

/-- What is accepted. -/
theorem isSafeUrl_iff : isSafeUrl D r url = .ok true ↔
    Text.strip url.toList ≠ [] ∧ ∃ parsed, urlsplit D url.toList = .ok parsed ∧
      D.lower parsed.scheme ∈ HTTP_SCHEMES ∧
      blockedLiteral (checkedHost D parsed) parsed.netloc = false ∧
      passesLookup D r (checkedHost D parsed) = true := by
  unfold isSafeUrl
  by_cases hblank : Text.strip url.toList = []
  · rw [if_pos hblank]
    exact iff_of_false (by simp) fun h => h.1 hblank
  rw [if_neg hblank]
  cases hsplit : urlsplit D url.toList with
  | error e => simp
  | ok parsed =>
      simp only [Except.ok.injEq, exists_eq_left']
      constructor
      · intro h
        by_cases hscheme : D.lower parsed.scheme ∈ HTTP_SCHEMES
        · rw [if_neg (not_not.mpr hscheme)] at h
          split_ifs at h with hblocked
          · cases h
          · exact ⟨hblank, hscheme, Bool.eq_false_of_not_eq_true hblocked, Except.ok.inj h⟩
        · rw [if_pos hscheme] at h
          cases h
      · rintro ⟨-, hscheme, hblocked, hpasses⟩
        rw [if_neg (not_not.mpr hscheme), if_neg (by simp [hblocked]), hpasses]

/-- The text of an IPv4 address is private when the address is. -/
theorem isPrivateIp_of_parseV4 {text : List Char} {ip : BitVec 32}
    (h : parseV4 text = some ip) : isPrivateIp text = isPrivate (.v4 ip) := by
  unfold isPrivateIp ipAddress
  rw [h]
  rfl

/-- The metadata hosts are private, or no addresses. -/
theorem notMem_metadata_of_public {ip : BitVec 32} (h : isPrivate (.v4 ip) = false) :
    toText ip ∉ METADATA_HOSTS := by
  intro hmem
  have hparse := parseV4_toText ip
  rcases List.mem_cons.mp hmem with htext | hmem
  · rw [← isPrivateIp_of_parseV4 hparse, htext] at h
    exact absurd h (by decide +kernel)
  · have hname : parseV4 "metadata.google.internal".toList = none := by decide +kernel
    rw [List.mem_singleton.mp hmem, hname] at hparse
    cases hparse

theorem resolvesToPublic_of {host : List Char} (hhost : parsed.hostname D = some host)
    (h : ∃ ip ∈ r.resolve host, isPrivate (.v4 ip) = false) : ResolvesToPublic D r parsed := by
  obtain ⟨ip, hip, hpublic⟩ := h
  exact ⟨host, hhost, ip, hip, hpublic, notMem_metadata_of_public hpublic⟩

/-- A lookup that is made is right. -/
theorem public_of_resolvesSafely {host : List Char} (h : resolvesSafely r host = true) :
    ∃ ip ∈ r.resolve host, isPrivate (.v4 ip) = false := by
  unfold resolvesSafely at h
  split at h
  · cases h
  · rename_i ip hip
    refine ⟨ip, hip, ?_⟩
    rw [← isPrivateIp_of_parseV4 (parseV4_toText ip)]
    simpa using h

/-- A dotted quad needs no lookup. -/
theorem public_of_literal {host netloc : List Char} {ip : BitVec 32} (hip : parseV4 host = some ip)
    (h : blockedLiteral host netloc = false) : ∃ ip ∈ r.resolve host, isPrivate (.v4 ip) = false := by
  refine ⟨ip, r.literal hip, ?_⟩
  rw [← isPrivateIp_of_parseV4 hip]
  simp only [blockedLiteral, decide_eq_false_iff_not, not_or] at h
  exact Bool.eq_false_of_not_eq_true h.2.2.2.2.2.2

end Check

/-- **Where no lookup is skipped**, what is accepted is vetted. -/
theorem vetted_of_not_skipsLookup {D : CharData} {r : Resolver} {url : String}
    (h : ∀ parsed, urlsplit D url.toList = .ok parsed → D.lower parsed.scheme ∈ HTTP_SCHEMES →
      blockedLiteral (checkedHost D parsed) parsed.netloc = false → ¬ SkipsLookup D r parsed) :
    Vetted D r url := by
  intro haccepts
  obtain ⟨-, parsed, hparsed, hscheme, hblocked, hpasses⟩ := isSafeUrl_iff.mp haccepts
  have hskips := h parsed hparsed hscheme hblocked
  obtain ⟨hnone, hdigit⟩ := not_or.mp hskips
  rw [lower_scheme hparsed] at hscheme
  refine ⟨parsed, hparsed, hscheme, ?_⟩
  cases hhost : parsed.hostname D with
  | none => exact absurd ⟨hhost, hpasses⟩ hnone
  | some host =>
      have hchecked : checkedHost D parsed = host := by
        unfold checkedHost
        rw [hhost]
      rw [hchecked] at hblocked hpasses
      refine resolvesToPublic_of hhost ?_
      by_cases hfirst : ∃ first ∈ host.head?, D.isDigit first = true
      · -- only a literal may begin with a digit, and that was checked by itself
        by_contra hno
        cases hip : parseV4 host with
        | none => exact hdigit ⟨host, hhost, hfirst, hip, hno⟩
        | some ip => exact hno (public_of_literal hip hblocked)
      · -- the lookup was made
        obtain ⟨first, rest, rfl⟩ := List.exists_cons_of_ne_nil (hostname_ne_nil hhost)
        refine public_of_resolvesSafely ((Bool.or_eq_true_iff.mp hpasses).resolve_left ?_)
        exact fun hd => hfirst ⟨first, rfl, hd⟩

/-- **A webhook's endpoint** that is accepted is as vetted as any other URL. -/
theorem vetted_of_validateWebhookEndpoint {D : CharData} {r : Resolver} {url reason : String}
    (haccepts : validateWebhookEndpoint D r url = .ok (true, reason))
    (h : ∀ parsed, urlsplit D url.toList = .ok parsed → ¬ SkipsLookup D r parsed) :
    ∃ parsed, urlsplit D url.toList = .ok parsed ∧ parsed.scheme ∈ HTTP_SCHEMES ∧
      ResolvesToPublic D r parsed := by
  refine vetted_of_not_skipsLookup (fun parsed hparsed _ _ => h parsed hparsed) ?_
  unfold validateWebhookEndpoint at haccepts
  split_ifs at haccepts
  · cases haccepts
  · cases hsafe : isSafeUrl D r url with
    | error e =>
        rw [hsafe] at haccepts
        cases haccepts
    | ok safe =>
        rw [hsafe] at haccepts
        cases safe with
        | true => rfl
        | false => cases haccepts
  · cases haccepts

/-- **A URL is vetted** exactly when no skipped lookup lets it through. -/
theorem vetted_iff (D : CharData) (r : Resolver) (url : String) :
    Vetted D r url ↔ ∀ parsed, Text.strip url.toList ≠ [] → urlsplit D url.toList = .ok parsed →
      D.lower parsed.scheme ∈ HTTP_SCHEMES →
        blockedLiteral (checkedHost D parsed) parsed.netloc = false →
          ¬ SkipsLookup D r parsed := by
  constructor
  · intro h parsed hblank hparsed hscheme hblocked hskips
    have hpasses : passesLookup D r (checkedHost D parsed) = true := by
      rcases hskips with ⟨-, hpasses⟩ | ⟨host, hhost, ⟨first, hfirst, hdigit⟩, -⟩
      · exact hpasses
      · have hchecked : checkedHost D parsed = host := by
          unfold checkedHost
          rw [Option.mem_def.mp hhost]
        obtain ⟨rest, rfl⟩ := List.head?_eq_some_iff.mp hfirst
        rw [hchecked, passesLookup, hdigit, Bool.true_or]
    obtain ⟨parsed', hparsed', -, host', hhost', ip, hip, hpublic, -⟩ :=
      h (isSafeUrl_iff.mpr ⟨hblank, parsed, hparsed, hscheme, hblocked, hpasses⟩)
    obtain rfl := Except.ok.inj (hparsed.symm.trans hparsed')
    -- a skipped lookup leaves no host to vet, or one without a public address
    rcases hskips with ⟨hnone, -⟩ | ⟨host, hhost, -, -, hno⟩
    · rw [hnone] at hhost'
      cases hhost'
    · obtain rfl := Option.some.inj (hhost.symm.trans hhost')
      exact hno ⟨ip, hip, hpublic⟩
  · intro h haccepts
    have hblank := (isSafeUrl_iff.mp haccepts).1
    exact vetted_of_not_skipsLookup (fun parsed => h parsed hblank) haccepts

/-- The decimal form of an address is not looked up. -/
theorem decimal_form_passes : ¬ ∀ (D : CharData) (r : Resolver) (url : String), Vetted D r url := by
  intro h
  -- a resolver that knows dotted quads and one decimal form
  let r : Resolver :=
    { resolve := fun text =>
        parseV4 text <|> if text = "2130706433".toList then some (octets 127 0 0 1) else none
      literal := fun hip => by rw [hip]; rfl }
  have haccepts : isSafeUrl .ascii r "http://2130706433/hook" = .ok true := by decide +kernel
  have hparsed : urlsplit .ascii "http://2130706433/hook".toList =
      .ok ⟨"http".toList, "2130706433".toList⟩ := by decide +kernel
  obtain ⟨parsed, hparsed', -, host, hhost, ip, hip, hpublic, -⟩ := h .ascii r _ haccepts
  obtain rfl := Except.ok.inj (hparsed.symm.trans hparsed')
  have hname : (⟨"http".toList, "2130706433".toList⟩ : SplitUrl).hostname .ascii =
      some "2130706433".toList := by decide +kernel
  obtain rfl := Option.some.inj (hname.symm.trans hhost)
  have haddress : r.resolve "2130706433".toList = some (octets 127 0 0 1) := by decide +kernel
  obtain rfl := Option.some.inj (haddress.symm.trans hip)
  exact absurd hpublic (by decide +kernel)

end HermesA2A
