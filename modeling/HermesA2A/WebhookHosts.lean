import HermesA2A.TargetUrls

/-!
# The guard of the webhook host

`validate_host` reads its argument as the authority of a URL and takes the text up to the
first colon for the host.  That is right for an IPv4 address, with or without a port.  It
is the first group of an IPv6 address, and part of the user-info where there is some; the
literal `::1` in its list can never be met.

* `HostSpelling` — an address as it can be written in the place of a host.
* `Caught` — the spellings the guard sees through, and those it refuses for another reason.
* `validateHost_iff` — a private address is refused exactly when its spelling is `Caught`,
  and what is accepted is returned unchanged.
-/

namespace HermesA2A

open IpAddress

/-- `urlparse(f"http://{host}")` -/
def parseHost (D : CharData) (host : List Char) : Except UrlError SplitUrl :=
  urlsplit D ("http://".toList ++ host)

/-- `validate_host` -/
def validateHost (D : CharData) (host : String) : Except UrlRefusal String :=
  match parseHost D host.toList with
  | .error e => .error (.unparsable e)
  | .ok parsed =>
      let netloc := guardedHost parsed
      if netloc ∈ ["localhost".toList, "127.0.0.1".toList, "::1".toList, "0.0.0.0".toList] then
        .error (.refused ("Host (" ++ host ++ ") resolves to a loopback address; " ++
          "refusing to deliver to an internal endpoint"))
      else if isPrivateIp netloc then
        .error (.refused ("Host (" ++ host ++ ") resolves to a private network address " ++
          "(" ++ String.ofList netloc ++ "); refusing SSRF delivery"))
      else .ok host

/-! ### Spellings -/

/-- The characters of user-info: unreserved characters, sub-delimiters, `:` and `%`. -/
def isUserInfoChar (c : Char) : Bool :=
  c.isAlphanum || "-._~!$&'()*+,;=:%".toList.contains c

/-- **An address in the place of a host**: an IPv4 or IPv6 address, as `ip_address` reads it,
the latter bare or in brackets, with user-info before it and a port after it where the
syntax has a place for them. -/
structure HostSpelling where
  userInfo : Option (List Char)
  address : List Char
  bracketed : Bool
  port : Option (List Char)
  ip : IpAddress
  userInfo_chars : ∀ text ∈ userInfo, ∀ c ∈ text, isUserInfoChar c = true
  reads : ipAddress address = some ip
  port_digits : ∀ text ∈ port, ∀ c ∈ text, c.isDigit = true
  bare_v4 : ∀ value, ip = .v4 value → bracketed = false
  bare_v6 : ∀ value, ip = .v6 value → bracketed = false → port = none

namespace HostSpelling

variable (s : HostSpelling)

/-- The user-info and what ends it. -/
def before : List Char := s.userInfo.elim [] (· ++ ['@'])

/-- The port and what begins it. -/
def after : List Char := s.port.elim [] (':' :: ·)

/-- The text. -/
def text : List Char :=
  s.before ++ (if s.bracketed then '[' :: s.address ++ [']'] else s.address) ++ s.after

end HostSpelling

/-- **What the guard catches**: an IPv4 address without user-info; user-info with a colon that
begins with a host that is refused itself; and a scope id with which the text is no authority
of a URL. -/
def Caught (D : CharData) (s : HostSpelling) : Prop :=
  (s.userInfo = none ∧ ∃ value, s.ip = .v4 value) ∨
    (∃ info ∈ s.userInfo, ':' ∈ info ∧ refusedHost (partitionBefore ':' info) = true) ∨
      '%' ∈ s.address ∧ ∃ e, parseHost D s.text = .error e

/-! ### What the guard tests -/

section Guard

variable {D : CharData} {host : List Char}

/-- The authority of `http://` and a text. -/
def authority (host : List Char) : List Char :=
  (host.filter (· ∉ ['\t', '\r', '\n'])).takeWhile (· ∉ ['/', '?', '#'])

theorem splitScheme_http (rest : List Char) :
    splitScheme D ("http://".toList ++ rest) = ("http".toList, "//".toList ++ rest) := by
  have hlower : D.lower "http".toList = "http".toList :=
    CharData.lower_of_ascii (Text.forall_mem_of_all (by decide))
  have hbefore : partitionBefore ':' ("http://".toList ++ rest) = "http".toList := rfl
  unfold splitScheme
  dsimp only
  rw [hbefore, hlower]
  exact if_pos ⟨by simp, by decide, by decide⟩

/-- How the URL is parsed: the authority is what it is, or there is an error. -/
theorem parseHost_eq : parseHost D host =
    if ¬ ('[' ∈ authority host ↔ ']' ∈ authority host) then .error .unbalancedBrackets
    else if '[' ∈ authority host ∧
        ¬ checkBracketedHost (partitionBefore ']' (partitionAfter '[' (authority host))) then
      .error .bracketedHost
    else if ¬ checkNetloc D (authority host) then .error .normalization
    else .ok ⟨"http".toList, authority host⟩ := by
  have hstart : (("http://".toList ++ host).dropWhile (·.toNat ≤ 0x20)).filter
      (· ∉ ['\t', '\r', '\n']) = "http://".toList ++ host.filter (· ∉ ['\t', '\r', '\n']) := rfl
  have hslashes : ∀ rest : List Char, ['/', '/'].isPrefixOf ("//".toList ++ rest) = true :=
    fun _ => rfl
  unfold parseHost urlsplit
  dsimp only
  rw [hstart, splitScheme_http]
  simp only [hslashes, if_true]
  rfl

/-- **What the guard refuses.** -/
theorem validateHost_error_iff : (∃ e, validateHost D (String.ofList host) = .error e) ↔
    (∃ e, parseHost D host = .error e) ∨
      refusedHost (partitionBefore ':' (authority host)) = true := by
  unfold validateHost
  rw [String.toList_ofList]
  cases hparse : parseHost D host with
  | error e => simp
  | ok parsed =>
      have hnetloc : parsed.netloc = authority host := by
        rw [parseHost_eq] at hparse
        split_ifs at hparse
        exact congrArg SplitUrl.netloc (Except.ok.inj hparse).symm
      -- the same four literals, in another order
      have hliterals : ∀ {a b c d x : List Char}, x ∈ [b, c, d, a] ↔ x ∈ [a, b, c, d] := by
        intro a b c d x
        simp only [List.mem_cons, List.not_mem_nil, or_false]
        tauto
      simp only [guardedHost, hnetloc, refusedHost_iff, hliterals, reduceCtorEq, exists_false,
        false_or]
      split_ifs with hloop hprivate
      · exact iff_of_true ⟨_, rfl⟩ (Or.inl hloop)
      · exact iff_of_true ⟨_, rfl⟩ (Or.inr hprivate)
      · exact iff_of_false (fun h => nomatch h) (not_or.mpr ⟨hloop, hprivate⟩)

/-- What is accepted is returned unchanged. -/
theorem validateHost_ok {accepted host : String} (h : validateHost D host = .ok accepted) :
    accepted = host := by
  unfold validateHost at h
  cases hparse : parseHost D host.toList with
  | error e =>
      rw [hparse] at h
      cases h
  | ok parsed =>
      rw [hparse] at h
      dsimp only at h
      split_ifs at h
      exact (Except.ok.inj h).symm

end Guard

/-! ### Characters of a spelling -/

/-- The characters that `urlsplit` removes, and those that end an authority. -/
def DELIMITERS : List Char := ['\t', '\r', '\n', '/', '?', '#']

section Chars

variable {c : Char} {text : List Char}

theorem authority_cons (hc : c ∉ DELIMITERS) : authority (c :: text) = c :: authority text := by
  have hkept : c ∉ ['\t', '\r', '\n'] := fun h => hc (List.mem_append_left ['/', '?', '#'] h)
  have hinside : c ∉ ['/', '?', '#'] := fun h => hc (List.mem_append_right ['\t', '\r', '\n'] h)
  unfold authority
  rw [List.filter_cons_of_pos (by simpa using hkept), List.takeWhile_cons_of_pos (by simpa using hinside)]

/-- An authority with no delimiter in it is kept as it is. -/
theorem authority_eq_self (h : ∀ c ∈ text, c ∉ DELIMITERS) : authority text = text := by
  induction text with
  | nil => rfl
  | cons c text ih =>
      obtain ⟨hc, hrest⟩ := List.forall_mem_cons.mp h
      rw [authority_cons hc, ih hrest]

/-- What comes before the first colon is, if there is no delimiter in it. -/
theorem partitionBefore_authority (h : ∀ c ∈ partitionBefore ':' text, c ∉ DELIMITERS) :
    partitionBefore ':' (authority text) = partitionBefore ':' text := by
  induction text with
  | nil => rfl
  | cons c text ih =>
      by_cases hcolon : c = ':'
      · rw [hcolon, authority_cons (by decide)]
        simp [partitionBefore]
      · have hhead : partitionBefore ':' (c :: text) = c :: partitionBefore ':' text := by
          simp [partitionBefore, hcolon]
        rw [hhead] at h ⊢
        obtain ⟨hc, hrest⟩ := List.forall_mem_cons.mp h
        rw [authority_cons hc, ← ih hrest]
        simp [partitionBefore, hcolon]

theorem isUserInfoChar_of_isHexDigit (h : c.isHexDigit = true) : isUserInfoChar c = true := by
  have halnum : c.isAlphanum = true := by
    have hkinds : c.isAlphanum = (c.isUpper || c.isLower || c.isDigit) := rfl
    simp only [Char.isHexDigit, Bool.or_eq_true, Bool.and_eq_true, decide_eq_true_eq] at h
    rcases h with (hdigit | ⟨hlo, hhi⟩) | ⟨hlo, hhi⟩
    · rw [hkinds, hdigit, Bool.or_true]
    · have hlower : c.isLower = true := Bool.and_eq_true_iff.mpr
        ⟨decide_eq_true hlo, decide_eq_true (UInt32.le_trans hhi (show 'f'.val ≤ 'z'.val by decide))⟩
      rw [hkinds, hlower, Bool.or_true, Bool.true_or]
    · have hupper : c.isUpper = true :=
        decide_eq_true ⟨hlo, UInt32.le_trans hhi (show 'F'.val ≤ 'Z'.val by decide)⟩
      rw [hkinds, hupper, Bool.true_or, Bool.true_or]
  rw [isUserInfoChar, halnum, Bool.true_or]

theorem isHexDigit_of_isDigit (h : c.isDigit = true) : c.isHexDigit = true := by
  rw [Char.isHexDigit, h, Bool.true_or, Bool.true_or]

/-- Characters of user-info are ASCII. -/
theorem small_of_isUserInfoChar (h : isUserInfoChar c = true) : c.toNat < 128 := by
  rw [isUserInfoChar, Bool.or_eq_true, List.contains_iff_mem] at h
  rcases h with halnum | hother
  · exact small_of_isSchemeChar (by simp [isSchemeChar, halnum])
  · have hsmall : ∀ d ∈ "-._~!$&'()*+,;=:%".toList, d.toNat < 128 :=
      Text.forall_mem_of_all (by decide)
    exact hsmall c hother

/-- And they are no delimiters, and none of those of a host. -/
theorem ne_of_isUserInfoChar (h : isUserInfoChar c = true) :
    c ∉ DELIMITERS ∧ c ≠ '@' ∧ c ≠ '[' ∧ c ≠ ']' := by
  have hnone : ∀ d ∈ '@' :: '[' :: ']' :: DELIMITERS, isUserInfoChar d = false :=
    Text.forall_mem_of_all (by decide)
  have hc : c ∉ '@' :: '[' :: ']' :: DELIMITERS := fun hmem => by
    rw [hnone c hmem] at h
    cases h
  simp only [List.mem_cons, not_or] at hc
  exact ⟨hc.2.2.2, hc.1, hc.2.1, hc.2.2.1⟩

/-- A text that is refused, and has no colon, is `localhost` or has a dot; its characters are
of those of `localhost`, digits and dots. -/
theorem chars_of_refusedHost (hcolon : ':' ∉ text) (h : refusedHost text = true) :
    (text = "localhost".toList ∨ '.' ∈ text) ∧
      ∀ c ∈ text, c.isDigit = true ∨ c = '.' ∨ c ∈ "localhost".toList := by
  have hliteral : ∀ x ∈ ["0.0.0.0".toList, "localhost".toList, "127.0.0.1".toList, "::1".toList],
      ':' ∉ x → (x = "localhost".toList ∨ '.' ∈ x) ∧
        x.all (fun c => decide (c.isDigit = true ∨ c = '.' ∨ c ∈ "localhost".toList)) = true := by
    decide
  rcases refusedHost_iff.mp h with hmem | hprivate
  · exact (hliteral text hmem hcolon).imp_right Text.forall_mem_of_all
  · obtain ⟨ip, hip, -⟩ := (Option.any_eq_true _ _).mp hprivate
    cases hv4 : parseV4 text with
    | some value =>
        refine ⟨Or.inr ?_, fun c hc => (v4_chars hv4 c hc).imp_right Or.inl⟩
        by_contra hdot
        unfold parseV4 at hv4
        rw [List.splitOn_eq_singleton hdot] at hv4
        split_ifs at hv4
        cases hoctet : parseOctet text <;> simp [List.mapM_cons, hoctet] at hv4
    | none =>
        cases hv6 : parseV6 text with
        | none => simp [ipAddress, hv4, hv6] at hip
        | some value =>
            exact absurd ((List.takeWhile_sublist _).subset (colon_of_parseV6 hv6)) hcolon

end Chars

/-! ### The text before the first colon -/

namespace HostSpelling

variable {s : HostSpelling}

theorem reads_v6 {value : BitVec 128} (h : s.ip = .v6 value) : parseV6 s.address = some value := by
  have hreads := s.reads
  rw [h] at hreads
  unfold ipAddress at hreads
  cases hv4 : parseV4 s.address with
  | some v => rw [hv4] at hreads; cases hreads
  | none =>
      rw [hv4] at hreads
      obtain ⟨v, hv, heq⟩ := Option.map_eq_some_iff.mp hreads
      rw [hv, IpAddress.v6.inj heq]

theorem reads_v4 {value : BitVec 32} (h : s.ip = .v4 value) : parseV4 s.address = some value := by
  have hreads := s.reads
  rw [h] at hreads
  unfold ipAddress at hreads
  cases hv4 : parseV4 s.address with
  | some v =>
      rw [hv4] at hreads
      exact congrArg some (IpAddress.v4.inj (Option.some.inj hreads))
  | none =>
      rw [hv4] at hreads
      obtain ⟨v, hv, heq⟩ := Option.map_eq_some_iff.mp hreads
      cases heq

/-- The text that is in the place of the host, brackets included. -/
def core (s : HostSpelling) : List Char :=
  if s.bracketed then '[' :: s.address ++ [']'] else s.address

theorem text_eq : s.text = s.before ++ s.core ++ s.after := rfl

theorem partitionBefore_append {text rest : List Char} (h : ':' ∉ text) :
    partitionBefore ':' (text ++ rest) = text ++ partitionBefore ':' rest := by
  refine List.takeWhile_append_of_pos fun c hc => ?_
  have hne : c ≠ ':' := by
    rintro rfl
    exact h hc
  simpa using hne

theorem partitionBefore_append_of_mem {text rest : List Char} (h : ':' ∈ text) :
    partitionBefore ':' (text ++ rest) = partitionBefore ':' text := by
  unfold partitionBefore
  rw [List.takeWhile_append, if_neg]
  intro hlen
  have hself := (List.takeWhile_prefix (p := (· ≠ ':')) (l := text)).eq_of_length hlen
  simpa using List.takeWhile_eq_self_iff.mp hself ':' h

/-- What comes before the first colon of an address and its port: the whole of an IPv4
address, the first group of an IPv6 address. -/
theorem partitionBefore_core : ∃ group : List Char,
    (∀ c ∈ group, c.isHexDigit = true ∨ c = '.') ∧
      partitionBefore ':' (s.core ++ s.after) = (if s.bracketed then ['['] else []) ++ group ∧
        ((∃ value, s.ip = .v4 value) ∧ group = s.address ∨
          (∃ value, s.ip = .v6 value) ∧ '.' ∉ group) := by
  have hafter : partitionBefore ':' s.after = [] := by
    unfold after
    cases s.port <;> rfl
  cases hip : s.ip with
  | v4 value =>
      have hchars := v4_chars (reads_v4 hip)
      have hcolon : ':' ∉ s.address := fun hmem => by
        rcases hchars ':' hmem with hdigit | hdot
        · exact absurd hdigit (by decide)
        · cases hdot
      refine ⟨s.address, fun c hc => (hchars c hc).imp_left isHexDigit_of_isDigit, ?_,
        Or.inl ⟨⟨value, rfl⟩, rfl⟩⟩
      rw [core, s.bare_v4 value hip]
      simp only [Bool.false_eq_true, if_false]
      rw [partitionBefore_append hcolon, hafter, List.append_nil, List.nil_append]
  | v6 value =>
      obtain ⟨rest, hrest, hhex⟩ := first_group_chars (reads_v6 hip)
      refine ⟨s.address.takeWhile (· ≠ ':'), fun c hc => Or.inl (hhex c hc), ?_,
        Or.inr ⟨⟨value, rfl⟩, fun hmem => absurd (hhex '.' hmem) (by decide)⟩⟩
      have hno : ':' ∉ s.address.takeWhile (· ≠ ':') := fun hmem => by
        simpa using List.mem_takeWhile_imp hmem
      have haddress : ∀ more, partitionBefore ':' (s.address ++ more) =
          s.address.takeWhile (· ≠ ':') := by
        intro more
        conv_lhs => rw [hrest, List.append_assoc, partitionBefore_append hno]
        simp [partitionBefore]
      unfold core
      by_cases hbr : s.bracketed = true
      · simp only [hbr, if_true]
        rw [List.cons_append, List.cons_append, List.append_assoc]
        have hcons : ∀ more, partitionBefore ':' ('[' :: more) = '[' :: partitionBefore ':' more :=
          fun _ => rfl
        rw [hcons, haddress]
        rfl
      · simp only [hbr, Bool.false_eq_true, if_false, List.nil_append]
        exact haddress _

/-- Before the first colon there is no delimiter. -/
theorem no_delimiter : ∀ c ∈ partitionBefore ':' s.text, c ∉ DELIMITERS := by
  intro c hc
  obtain ⟨group, hchars, hcore, -⟩ := s.partitionBefore_core
  have hinfo : ∀ d ∈ s.before, d ∉ DELIMITERS := by
    intro d hd
    unfold before at hd
    cases hui : s.userInfo with
    | none =>
        rw [hui] at hd
        exact absurd hd List.not_mem_nil
    | some info =>
        rw [hui] at hd
        rcases List.mem_append.mp hd with hd | hd
        · exact (ne_of_isUserInfoChar (s.userInfo_chars info hui d hd)).1
        · rw [List.mem_singleton.mp hd]
          decide
  by_cases hcolon : ':' ∈ s.before
  · refine hinfo c ?_
    rw [text_eq, List.append_assoc, partitionBefore_append_of_mem hcolon] at hc
    exact (List.takeWhile_sublist _).subset hc
  · rw [text_eq, List.append_assoc, partitionBefore_append hcolon, hcore] at hc
    rcases List.mem_append.mp hc with hc | hc
    · exact hinfo c hc
    · rcases List.mem_append.mp hc with hc | hc
      · split_ifs at hc
        · rw [List.mem_singleton.mp hc]
          decide
        · exact absurd hc List.not_mem_nil
      · rcases hchars c hc with hhex | rfl
        · exact (ne_of_isUserInfoChar (isUserInfoChar_of_isHexDigit hhex)).1
        · decide

/-- **What the guard takes for the host** is refused for two reasons only. -/
theorem refusedHost_head_iff (hprivate : isPrivate s.ip = true) :
    refusedHost (partitionBefore ':' s.text) = true ↔
      (s.userInfo = none ∧ ∃ value, s.ip = .v4 value) ∨
        ∃ info ∈ s.userInfo, ':' ∈ info ∧ refusedHost (partitionBefore ':' info) = true := by
  have hnocolon : ':' ∉ partitionBefore ':' s.text := fun hmem => by
    simpa using List.mem_takeWhile_imp hmem
  -- neither `@` nor a bracket is in a text that is refused
  have hforeign : ∀ c ∈ ['@', '['], c ∈ partitionBefore ':' s.text →
      refusedHost (partitionBefore ':' s.text) = false := by
    intro c hc hmem
    refine Bool.eq_false_iff.mpr fun hrefused => ?_
    have hbad : ∀ d ∈ ['@', '['], ¬ (d.isDigit = true ∨ d = '.' ∨ d ∈ "localhost".toList) :=
      Text.forall_mem_of_all (by decide)
    exact hbad c hc ((chars_of_refusedHost hnocolon hrefused).2 c hmem)
  obtain ⟨group, hchars, hcore, hgroup⟩ := s.partitionBefore_core
  cases hui : s.userInfo with
  | some info =>
      have hbefore : s.before = info ++ ['@'] := by
        unfold before
        rw [hui]
        rfl
      by_cases hcolon : ':' ∈ info
      · have hhead : partitionBefore ':' s.text = partitionBefore ':' info := by
          rw [text_eq, hbefore, List.append_assoc, List.append_assoc,
            partitionBefore_append_of_mem hcolon]
        simp [hhead, hcolon]
      · have hhead : partitionBefore ':' s.text =
            info ++ '@' :: partitionBefore ':' (s.core ++ s.after) := by
          rw [text_eq, hbefore, List.append_assoc, partitionBefore_append (by simp [hcolon])]
          simp
        rw [hforeign '@' List.mem_cons_self (by rw [hhead]; simp)]
        simp [hcolon]
  | none =>
      have hhead : partitionBefore ':' s.text = (if s.bracketed then ['['] else []) ++ group := by
        rw [text_eq, ← hcore]
        unfold before
        rw [hui]
        rfl
      simp only [Option.mem_def, reduceCtorEq, false_and, exists_false, or_false, true_and]
      by_cases hbr : s.bracketed = true
      · rw [hforeign '[' (by simp) (by rw [hhead, hbr]; simp)]
        refine iff_of_false (by simp) ?_
        rintro ⟨value, hip⟩
        rw [s.bare_v4 value hip] at hbr
        cases hbr
      · rw [hhead, if_neg hbr, List.nil_append]
        rcases hgroup with ⟨⟨value, hip⟩, rfl⟩ | ⟨⟨value, hip⟩, hdot⟩
        · refine iff_of_true (refusedHost_iff.mpr (Or.inr ?_)) ⟨value, hip⟩
          rw [isPrivateIp, s.reads]
          exact hprivate
        · -- the first group of an IPv6 address
          have hno : ':' ∉ group := fun hmem => by
            rcases hchars ':' hmem with hhex | hdot
            · exact absurd hhex (by decide)
            · cases hdot
          refine iff_of_false (fun hrefused => ?_) (by simp [hip])
          · rcases (chars_of_refusedHost hno hrefused).1 with rfl | hmem
            · rcases hchars 'l' (by decide) with hhex | hdot
              · exact absurd hhex (by decide)
              · cases hdot
            · exact absurd hmem hdot

/-! ### Spellings that are parsed -/

/-- Without a scope id, an address has characters of user-info only. -/
theorem address_chars (hscope : '%' ∉ s.address) : ∀ c ∈ s.address, isUserInfoChar c = true := by
  intro c hc
  cases hip : s.ip with
  | v4 value =>
      rcases v4_chars (reads_v4 hip) c hc with hdigit | rfl
      · exact isUserInfoChar_of_isHexDigit (isHexDigit_of_isDigit hdigit)
      · decide
  | v6 value =>
      rcases v6_chars (reads_v6 hip) hscope c hc with hhex | rfl | rfl
      · exact isUserInfoChar_of_isHexDigit hhex
      · decide
      · decide

/-- The characters of the parts of a text without a scope id. -/
theorem text_chars (hscope : '%' ∉ s.address) :
    (∀ c ∈ s.before, isUserInfoChar c = true ∨ c = '@') ∧
      (∀ c ∈ s.after, isUserInfoChar c = true) ∧
        ∀ c ∈ s.text, isUserInfoChar c = true ∨ c ∈ ['@', '[', ']'] := by
  have hbefore : ∀ c ∈ s.before, isUserInfoChar c = true ∨ c = '@' := by
    intro c hc
    unfold before at hc
    cases hui : s.userInfo with
    | none =>
        rw [hui] at hc
        exact absurd hc List.not_mem_nil
    | some info =>
        rw [hui] at hc
        exact (List.mem_append.mp hc).imp (s.userInfo_chars info hui c) List.mem_singleton.mp
  have hafter : ∀ c ∈ s.after, isUserInfoChar c = true := by
    intro c hc
    unfold after at hc
    cases hport : s.port with
    | none =>
        rw [hport] at hc
        exact absurd hc List.not_mem_nil
    | some port =>
        rw [hport] at hc
        rcases List.mem_cons.mp hc with rfl | hc
        · decide
        · exact isUserInfoChar_of_isHexDigit (isHexDigit_of_isDigit (s.port_digits port hport c hc))
  refine ⟨hbefore, hafter, fun c hc => ?_⟩
  rw [text_eq] at hc
  rcases List.mem_append.mp hc with hc | hc
  · rcases List.mem_append.mp hc with hc | hc
    · exact (hbefore c hc).imp_right (by rintro rfl; decide)
    · unfold core at hc
      split_ifs at hc
      · rcases List.mem_append.mp hc with hc | hc
        · rcases List.mem_cons.mp hc with rfl | hc
          · exact Or.inr (by decide)
          · exact Or.inl (address_chars hscope c hc)
        · rw [List.mem_singleton.mp hc]
          exact Or.inr (by decide)
      · exact Or.inl (address_chars hscope c hc)
  · exact Or.inl (hafter c hc)

/-- Brackets are around the address or nowhere. -/
theorem mem_text_bracket (hscope : '%' ∉ s.address) {c : Char} (hc : c ∈ ['[', ']']) :
    c ∈ s.text ↔ s.bracketed = true := by
  obtain ⟨hbefore, hafter, -⟩ := text_chars hscope
  have hbad : isUserInfoChar c = false ∧ c ≠ '@' := by
    have hall : ∀ c ∈ ['[', ']'], isUserInfoChar c = false ∧ c ≠ '@' :=
      Text.forall_mem_of_all (by decide)
    exact hall c hc
  have hno : ∀ {text : List Char}, (∀ d ∈ text, isUserInfoChar d = true ∨ d = '@') → c ∉ text :=
    fun h hmem => by
      rcases h c hmem with hchar | hat
      · rw [hbad.1] at hchar
        cases hchar
      · exact hbad.2 hat
  have hb : c ∉ s.before := hno hbefore
  have ha : c ∉ s.after := hno fun d hd => Or.inl (hafter d hd)
  have hc' : c ∉ s.address := hno fun d hd => Or.inl (address_chars hscope d hd)
  rw [text_eq, List.mem_append, List.mem_append, core]
  simp only [List.mem_cons, List.not_mem_nil, or_false] at hc
  split_ifs with hbr <;> simp [hb, ha, hc', hbr, hc]

/-- What is in the brackets is the address. -/
theorem bracketed_eq (hscope : '%' ∉ s.address) (hbr : s.bracketed = true) :
    partitionBefore ']' (partitionAfter '[' s.text) = s.address := by
  obtain ⟨hbefore, -⟩ := text_chars hscope
  have htext : s.text = s.before ++ '[' :: (s.address ++ ']' :: s.after) := by
    rw [text_eq, core, if_pos hbr]
    simp
  have hdrop : s.text.dropWhile (· ≠ '[') = '[' :: (s.address ++ ']' :: s.after) := by
    rw [htext, List.dropWhile_append_of_pos, List.dropWhile_cons_of_neg (by simp)]
    intro c hc
    rcases hbefore c hc with hchar | rfl
    · simpa using (ne_of_isUserInfoChar hchar).2.2.1
    · rfl
  rw [partitionAfter, hdrop, List.drop_one, List.tail_cons, partitionBefore,
    List.takeWhile_append_of_pos, List.takeWhile_cons_of_neg (by simp), List.append_nil]
  intro c hc
  simpa using (ne_of_isUserInfoChar (address_chars hscope c hc)).2.2.2

/-- A bracketed address is accepted in brackets. -/
theorem checkBracketedHost_address (hbr : s.bracketed = true) :
    checkBracketedHost s.address = true := by
  cases hip : s.ip with
  | v4 value =>
      rw [s.bare_v4 value hip] at hbr
      cases hbr
  | v6 value =>
      obtain ⟨rest, hrest, hhex⟩ := first_group_chars (reads_v6 hip)
      unfold checkBracketedHost
      split
      · rename_i tail haddress
        have hv : 'v' ∈ s.address.takeWhile (· ≠ ':') := by
          rw [haddress, List.takeWhile_cons_of_pos (by decide)]
          exact List.mem_cons_self
        exact absurd (hhex 'v' hv) (by decide)
      · rw [s.reads, hip]

/-- **A text without a scope id is parsed.** -/
theorem parseHost_ok (D : CharData) (hscope : '%' ∉ s.address) :
    ∃ parsed, parseHost D s.text = .ok parsed := by
  obtain ⟨-, -, hchars⟩ := text_chars hscope
  have hclean : ∀ c ∈ s.text, c ∉ DELIMITERS := fun c hc => by
    rcases hchars c hc with hchar | hmem
    · exact (ne_of_isUserInfoChar hchar).1
    · have hall : ∀ c ∈ ['@', '[', ']'], c ∉ DELIMITERS := Text.forall_mem_of_all (by decide)
      exact hall c hmem
  have hascii : s.text.all (·.toNat < 128) = true := by
    refine List.all_eq_true.mpr fun c hc => decide_eq_true ?_
    rcases hchars c hc with hchar | hmem
    · exact small_of_isUserInfoChar hchar
    · have hall : ∀ c ∈ ['@', '[', ']'], c.toNat < 128 := Text.forall_mem_of_all (by decide)
      exact hall c hmem
  have hopen : '[' ∈ s.text ↔ s.bracketed = true := mem_text_bracket hscope (by decide)
  have hclose : ']' ∈ s.text ↔ s.bracketed = true := mem_text_bracket hscope (by decide)
  have hnetloc : checkNetloc D s.text = true := by
    unfold checkNetloc
    rw [if_pos hascii]
  rw [parseHost_eq, authority_eq_self hclean, if_neg (not_not.mpr (hopen.trans hclose.symm)),
    if_neg, if_neg (not_not.mpr hnetloc)]
  · exact ⟨_, rfl⟩
  · rintro ⟨hmem, hbad⟩
    have hbr := hopen.mp hmem
    rw [bracketed_eq hscope hbr] at hbad
    exact hbad (checkBracketedHost_address hbr)

end HostSpelling

/-- **A private address is refused exactly when its spelling is caught**, and a host that is
accepted is returned unchanged. -/
theorem validateHost_iff (D : CharData) (s : HostSpelling) (hprivate : isPrivate s.ip = true) :
    ((∃ e, validateHost D (String.ofList s.text) = .error e) ↔ Caught D s) ∧
      ∀ host accepted, validateHost D host = .ok accepted → accepted = host := by
  refine ⟨?_, fun host accepted h => validateHost_ok h⟩
  rw [validateHost_error_iff, partitionBefore_authority s.no_delimiter,
    HostSpelling.refusedHost_head_iff hprivate]
  unfold Caught
  constructor
  · rintro (⟨e, herror⟩ | hseen)
    · refine Or.inr (Or.inr ⟨?_, e, herror⟩)
      by_contra hscope
      obtain ⟨parsed, hok⟩ := s.parseHost_ok D hscope
      rw [hok] at herror
      cases herror
    · exact hseen.imp_right Or.inl
  · rintro (hv4 | hinfo | ⟨-, herror⟩)
    · exact Or.inr (Or.inl hv4)
    · exact Or.inr (Or.inr hinfo)
    · exact Or.inl herror

/-- `10.0.0.1:80` -/
def HostSpelling.privateV4 : HostSpelling where
  userInfo := none
  address := "10.0.0.1".toList
  bracketed := false
  port := some "80".toList
  ip := .v4 (octets 10 0 0 1)
  userInfo_chars := nofun
  reads := by decide +kernel
  port_digits := by
    rintro text ⟨⟩
    exact Text.forall_mem_of_all (by decide)
  bare_v4 _ _ := rfl
  bare_v6 := nofun

/-- It is refused. -/
theorem validateHost_iff_v4 : isPrivate HostSpelling.privateV4.ip = true ∧
    ∃ e, validateHost .ascii (String.ofList HostSpelling.privateV4.text) = .error e := by
  have hprivate : isPrivate HostSpelling.privateV4.ip = true := by decide +kernel
  exact ⟨hprivate, (validateHost_iff .ascii .privateV4 hprivate).1.mpr (Or.inl ⟨rfl, _, rfl⟩)⟩

/-- `[::1]` -/
def HostSpelling.loopbackV6 : HostSpelling where
  userInfo := none
  address := "::1".toList
  bracketed := true
  port := none
  ip := .v6 1
  userInfo_chars := nofun
  reads := by decide +kernel
  port_digits := nofun
  bare_v4 := nofun
  bare_v6 := nofun

/-- It is accepted. -/
theorem loopbackV6_passes : ¬ ∀ (D : CharData) (s : HostSpelling), isPrivate s.ip = true →
    ∃ e, validateHost D (String.ofList s.text) = .error e := by
  intro h
  obtain ⟨e, he⟩ := h .ascii .loopbackV6 (by decide +kernel)
  have haccepts : validateHost .ascii (String.ofList HostSpelling.loopbackV6.text) = .ok "[::1]" := by
    decide +kernel
  rw [haccepts] at he
  cases he

end HermesA2A
