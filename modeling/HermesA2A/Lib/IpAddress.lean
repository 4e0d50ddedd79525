import Mathlib.Data.List.Basic
import Mathlib.Data.BitVec
import Mathlib.Data.List.TakeWhile

/-!
# IP addresses

What Python's `ipaddress.ip_address` reads, and when an address is in a network.  A text
is a list of characters, an address a bit vector of 32 or 128 bits.

* `ipAddress` — the address a text stands for, if it stands for one.
* `v4_chars`, `v6_chars`, `first_group_chars` — the characters such a text can have.
* `toText`, `parseV4_toText` — dotted decimal notation, and that it is read back.
-/

/-- An address. -/
inductive IpAddress
  | v4 (value : BitVec 32)
  | v6 (value : BitVec 128)
  deriving DecidableEq

namespace IpAddress

/-! ### IPv4 -/

/-- `_parse_octet`: a decimal number up to 255, without leading zeros. -/
def parseOctet (octet : List Char) : Option ℕ :=
  if octet = [] ∨ ¬ octet.all Char.isDigit then none
  else if octet.length > 3 then none
  else if octet ≠ ['0'] ∧ octet.head? = some '0' then none
  else
    let value := Nat.ofDigitChars 10 octet 0
    if value > 255 then none else some value

/-- `IPv4Address(text)` -/
def parseV4 (text : List Char) : Option (BitVec 32) :=
  if '/' ∈ text then none
  else
    match (text.splitOn '.').mapM parseOctet with
    | some [a, b, c, d] => some (BitVec.ofNat 32 (((a * 256 + b) * 256 + c) * 256 + d))
    | _ => none

/-! ### IPv6 -/

/-- The value of a hexadecimal digit. -/
def hexValue (c : Char) : ℕ :=
  if c.isDigit then c.toNat - '0'.toNat else c.toLower.toNat - 'a'.toNat + 10

/-- `_parse_hextet` -/
def parseHextet (hextet : List Char) : Option ℕ :=
  if hextet = [] ∨ ¬ hextet.all Char.isHexDigit ∨ hextet.length > 4 then none
  else some (hextet.foldl (fun n c => 16 * n + hexValue c) 0)

/-- Hextets, one after the other. -/
def joinHextets (value : ℕ) (hextets : List ℕ) : ℕ := hextets.foldl (fun n h => 65536 * n + h) value

/-- The parts of an IPv6 address, an IPv4 suffix turned into two of them. -/
def hextetParts (parts : List (List Char)) : Option (List (List Char)) :=
  match parts.getLast? with
  | none => none
  | some last =>
      if '.' ∈ last then
        (parseV4 last).map fun ip =>
          parts.dropLast ++
            [Nat.toDigits 16 (ip.toNat / 65536), Nat.toDigits 16 (ip.toNat % 65536)]
      else some parts

/-- Where the zeros are left out: the empty parts that are neither the first nor the last. -/
def skips (parts : List (List Char)) : List ℕ :=
  (List.range parts.length).filter fun i => 0 < i ∧ i + 1 < parts.length ∧ parts[i]? = some []

/-- How many parts come before `::`, how many zeros there are and how many parts come
after. -/
def layout (parts : List (List Char)) : Option (ℕ × ℕ × ℕ) :=
  let first := parts.head?.getD []
  let last := parts.getLast?.getD []
  match skips parts with
  | [] =>
      if parts.length = 8 ∧ first ≠ [] ∧ last ≠ [] then some (parts.length, 0, 0) else none
  | [skip] =>
      let hi := if first = [] then skip - 1 else skip
      let lo := if last = [] then parts.length - skip - 2 else parts.length - skip - 1
      if (first = [] ∧ hi ≠ 0) ∨ (last = [] ∧ lo ≠ 0) ∨ hi + lo ≥ 8 then none
      else some (hi, 8 - (hi + lo), lo)
  | _ => none

/-- `_ip_int_from_string` -/
def parseGroups (text : List Char) : Option (BitVec 128) := do
  let parts := text.splitOn ':'
  if parts.length < 3 then none
  else
    let parts ← hextetParts parts
    if parts.length > 9 then none
    else
      let (hi, zeros, lo) ← layout parts
      let high ← (parts.take hi).mapM parseHextet
      let low ← (parts.drop (parts.length - lo)).mapM parseHextet
      return BitVec.ofNat 128 (joinHextets (joinHextets 0 (high ++ List.replicate zeros 0)) low)

/-- `IPv6Address(text)`; a scope id follows `%`. -/
def parseV6 (text : List Char) : Option (BitVec 128) :=
  if '/' ∈ text then none
  else
    match text.dropWhile (· ≠ '%') with
    | [] => parseGroups text
    | _ :: scopeId =>
        if scopeId = [] ∨ '%' ∈ scopeId then none
        else parseGroups (text.takeWhile (· ≠ '%'))

/-- `ip_address` -/
def ipAddress (text : List Char) : Option IpAddress :=
  (parseV4 text).map v4 <|> (parseV6 text).map v6

end IpAddress

/-! ### Networks -/

/-- `IPv4Network` and `IPv6Network`. -/
structure IpNetwork where
  address : IpAddress
  prefixLength : ℕ

/-- The mask of a prefix length. -/
def netmask (w prefixLength : ℕ) : BitVec w := BitVec.allOnes w <<< (w - prefixLength)

/-- `ip in network` -/
def IpNetwork.contains (network : IpNetwork) : IpAddress → Bool
  | .v4 ip =>
      match network.address with
      | .v4 base => ip &&& netmask 32 network.prefixLength == base
      | .v6 _ => false
  | .v6 ip =>
      match network.address with
      | .v4 _ => false
      | .v6 base => ip &&& netmask 128 network.prefixLength == base

/-! ### The characters of an address -/

namespace IpAddress

/-- A character that is no separator is in a part. -/
theorem exists_mem_splitOn {sep c : Char} (hne : c ≠ sep) :
    ∀ {text : List Char}, c ∈ text → ∃ part ∈ text.splitOn sep, c ∈ part := by
  intro text
  induction text with
  | nil => exact fun h => nomatch h
  | cons d text ih =>
      intro h
      rw [List.splitOn_cons_eq_if_modifyHead]
      split_ifs with hd
      · -- the separator is not the character
        have hc : c ∈ text := by
          refine (List.mem_cons.mp h).resolve_left fun heq => hne ?_
          rw [heq]
          exact eq_of_beq hd
        obtain ⟨part, hpart, hmem⟩ := ih hc
        exact ⟨part, List.mem_cons_of_mem _ hpart, hmem⟩
      · obtain ⟨first, rest, hsplit⟩ := List.exists_cons_of_ne_nil (List.splitOn_ne_nil sep text)
        rw [hsplit] at ih ⊢
        rcases List.mem_cons.mp h with rfl | hc
        · exact ⟨_, List.mem_cons_self, List.mem_cons_self⟩
        · obtain ⟨part, hpart, hmem⟩ := ih hc
          rcases List.mem_cons.mp hpart with rfl | hpart
          · exact ⟨_, List.mem_cons_self, List.mem_cons_of_mem _ hmem⟩
          · exact ⟨part, List.mem_cons_of_mem _ hpart, hmem⟩

/-- What is read part by part is read in every part. -/
theorem isSome_of_mapM {α β : Type} {f : α → Option β} :
    ∀ {l : List α} {r : List β}, l.mapM f = some r → ∀ x ∈ l, (f x).isSome := by
  intro l
  induction l with
  | nil => exact fun _ x hx => nomatch hx
  | cons y l ih =>
      intro r h x hx
      rw [List.mapM_cons, Option.bind_eq_bind, Option.bind_eq_some_iff] at h
      obtain ⟨b, hb, h⟩ := h
      obtain ⟨bs, hbs, -⟩ := Option.bind_eq_some_iff.mp h
      rcases List.mem_cons.mp hx with rfl | hx
      · exact Option.isSome_of_eq_some hb
      · exact ih hbs x hx

theorem isDigit_of_parseOctet {octet : List Char} (h : (parseOctet octet).isSome) :
    ∀ c ∈ octet, c.isDigit = true := by
  unfold parseOctet at h
  split_ifs at h with hdigits
  · cases h
  · cases h
  · cases h
  · exact List.all_eq_true.mp (not_not.mp (not_or.mp hdigits).2)

/-- The text of an IPv4 address has digits and dots. -/
theorem v4_chars {text : List Char} {ip : BitVec 32} (h : parseV4 text = some ip) :
    ∀ c ∈ text, c.isDigit = true ∨ c = '.' := by
  intro c hc
  unfold parseV4 at h
  split_ifs at h
  cases hoctets : (text.splitOn '.').mapM parseOctet with
  | none =>
      rw [hoctets] at h
      cases h
  | some octets =>
      by_cases hdot : c = '.'
      · exact Or.inr hdot
      · obtain ⟨part, hpart, hmem⟩ := exists_mem_splitOn hdot hc
        exact Or.inl (isDigit_of_parseOctet (isSome_of_mapM hoctets part hpart) c hmem)

/-- The text of an IPv6 address has a colon, before the scope id. -/
theorem colon_of_parseV6 {text : List Char} {ip : BitVec 128} (h : parseV6 text = some ip) :
    ':' ∈ text.takeWhile (· ≠ '%') := by
  have hgroups : ∀ {t : List Char}, parseGroups t = some ip → ':' ∈ t := by
    intro t ht
    by_contra hno
    unfold parseGroups at ht
    rw [List.splitOn_eq_singleton hno] at ht
    cases ht
  unfold parseV6 at h
  split_ifs at h
  split at h
  · rename_i hscope
    rw [List.takeWhile_eq_self_iff.mpr (List.dropWhile_eq_nil_iff.mp hscope)]
    exact hgroups h
  · split_ifs at h
    exact hgroups h

theorem isHexDigit_of_parseHextet {hextet : List Char} (h : (parseHextet hextet).isSome) :
    ∀ c ∈ hextet, c.isHexDigit = true := by
  unfold parseHextet at h
  split_ifs at h with hdigits
  · cases h
  · exact List.all_eq_true.mp (not_not.mp (not_or.mp (not_or.mp hdigits).2).1)

/-- The first part of a split ends where the separator begins. -/
theorem head?_splitOn (sep : Char) (text : List Char) :
    (text.splitOn sep).head? = some (text.takeWhile (· ≠ sep)) := by
  induction text with
  | nil => rfl
  | cons c text ih =>
      rw [List.splitOn_cons_eq_if_modifyHead, List.takeWhile_cons]
      by_cases hc : c = sep
      · simp [hc]
      · obtain ⟨rest, hrest⟩ := List.head?_eq_some_iff.mp ih
        simp [hc, hrest]

/-- **What is left out is empty.**  A part that is not read is one of those around `::`. -/
theorem eq_nil_of_layout {parts : List (List Char)} {hi zeros lo : ℕ}
    (h : layout parts = some (hi, zeros, lo)) {i : ℕ} {part : List Char}
    (hpart : parts[i]? = some part) (hhi : ¬ i < hi) (hlo : ¬ parts.length - lo ≤ i) :
    part = [] := by
  have hlt : i < parts.length := (List.getElem?_eq_some_iff.mp hpart).1
  unfold layout at h
  dsimp only at h
  split at h
  · split_ifs at h
    simp only [Option.some.injEq, Prod.mk.injEq] at h
    omega
  · rename_i skip hskips
    have hskip : skip ∈ skips parts := by
      rw [hskips]
      exact List.mem_singleton_self skip
    have hempty : 0 < skip ∧ skip + 1 < parts.length ∧ parts[skip]? = some [] := by
      simpa using (List.mem_filter.mp hskip).2
    -- a part before the gap is the empty first one, a part after it the empty last one
    by_contra hne
    have hgap : i ≠ skip := by
      rintro rfl
      exact hne (Option.some.inj (hpart.symm.trans hempty.2.2))
    have hfirst : parts.head?.getD [] = [] → i ≠ 0 := by
      rintro hnil rfl
      rw [List.head?_eq_getElem?, hpart] at hnil
      exact hne hnil
    have hlast : parts.getLast?.getD [] = [] → i ≠ parts.length - 1 := by
      rintro hnil rfl
      rw [List.getLast?_eq_getElem?, hpart] at hnil
      exact hne hnil
    split_ifs at h with hnil hnil' hbad hbad hnil' hbad hbad <;>
      simp only [Option.some.injEq, Prod.mk.injEq] at h <;>
      simp only [hnil, hnil', true_and, false_and, false_or, not_or, not_not, ge_iff_le,
        not_le, ne_eq, true_implies, false_implies] at hbad hfirst hlast <;>
      omega
  · cases h

/-- The parts of an address without a scope id: all but the last are hexadecimal. -/
theorem part_chars {text : List Char} {ip : BitVec 128} (h : parseGroups text = some ip) :
    3 ≤ (text.splitOn ':').length ∧
      (∀ part ∈ (text.splitOn ':').dropLast, ∀ c ∈ part, c.isHexDigit = true) ∧
      ∀ part ∈ text.splitOn ':', ∀ c ∈ part, c.isHexDigit = true ∨ c = '.' := by
  unfold parseGroups at h
  dsimp only at h
  split_ifs at h with hthree
  obtain ⟨parts, hparts, h⟩ := Option.bind_eq_some_iff.mp h
  split_ifs at h
  obtain ⟨⟨hi, zeros, lo⟩, hlayout, h⟩ := Option.bind_eq_some_iff.mp h
  obtain ⟨high, hhigh, h⟩ := Option.bind_eq_some_iff.mp h
  obtain ⟨low, hlow, -⟩ := Option.bind_eq_some_iff.mp h
  have hhex : ∀ part ∈ parts, ∀ c ∈ part, c.isHexDigit = true := by
    intro part hpart
    obtain ⟨i, hi'⟩ := List.mem_iff_getElem?.mp hpart
    by_cases hlt : i < hi
    · refine isHexDigit_of_parseHextet (isSome_of_mapM hhigh part ?_)
      exact List.mem_iff_getElem?.mpr ⟨i, by rw [List.getElem?_take_of_lt hlt, hi']⟩
    · by_cases hge : parts.length - lo ≤ i
      · refine isHexDigit_of_parseHextet (isSome_of_mapM hlow part ?_)
        refine List.mem_iff_getElem?.mpr ⟨i - (parts.length - lo), ?_⟩
        rw [List.getElem?_drop, Nat.add_sub_cancel' hge, hi']
      · rw [eq_nil_of_layout hlayout hi' hlt hge]
        exact fun c hc => absurd hc List.not_mem_nil
  refine ⟨Nat.not_lt.mp hthree, ?_⟩
  unfold hextetParts at hparts
  split at hparts
  · cases hparts
  · rename_i last hlast
    have hsplit := List.dropLast_append_getLast? last hlast
    split_ifs at hparts
    · obtain ⟨v4, hv4, rfl⟩ := Option.map_eq_some_iff.mp hparts
      have hinit : ∀ part ∈ (text.splitOn ':').dropLast, ∀ c ∈ part, c.isHexDigit = true :=
        fun part hpart => hhex part (List.mem_append_left _ hpart)
      refine ⟨hinit, fun part hpart c hc => ?_⟩
      rw [← hsplit] at hpart
      rcases List.mem_append.mp hpart with hpart | hpart
      · exact Or.inl (hinit part hpart c hc)
      · obtain rfl := List.mem_singleton.mp hpart
        refine (v4_chars hv4 c hc).imp_left fun hdigit => ?_
        simp [Char.isHexDigit, hdigit]
    · obtain rfl := Option.some.inj hparts
      exact ⟨fun part hpart => hhex part (List.dropLast_subset _ hpart),
        fun part hpart c hc => Or.inl (hhex part hpart c hc)⟩

/-- The text of an IPv6 address without a scope id has hexadecimal digits, colons and dots. -/
theorem v6_chars {text : List Char} {ip : BitVec 128} (h : parseV6 text = some ip)
    (hscope : '%' ∉ text) : ∀ c ∈ text, c.isHexDigit = true ∨ c = ':' ∨ c = '.' := by
  intro c hc
  have hgroups : parseGroups text = some ip := by
    unfold parseV6 at h
    split_ifs at h
    rwa [List.dropWhile_eq_nil_iff.mpr fun d hd => by
      simpa using fun heq : d = '%' => hscope (heq ▸ hd)] at h
  by_cases hcolon : c = ':'
  · exact Or.inr (Or.inl hcolon)
  · obtain ⟨part, hpart, hmem⟩ := exists_mem_splitOn hcolon hc
    exact ((part_chars hgroups).2.2 part hpart c hmem).imp_right Or.inr

/-- The text of an IPv6 address begins with hexadecimal digits, up to a colon. -/
theorem first_group_chars {text : List Char} {ip : BitVec 128} (h : parseV6 text = some ip) :
    ∃ rest, text = text.takeWhile (· ≠ ':') ++ ':' :: rest ∧
      ∀ c ∈ text.takeWhile (· ≠ ':'), c.isHexDigit = true := by
  have hgroups : ∀ {t}, parseGroups t = some ip →
      ∃ rest, t = t.takeWhile (· ≠ ':') ++ ':' :: rest ∧
        ∀ c ∈ t.takeWhile (· ≠ ':'), c.isHexDigit = true := by
    intro t ht
    obtain ⟨hthree, hinit, -⟩ := part_chars ht
    obtain ⟨parts, hparts⟩ := List.head?_eq_some_iff.mp (head?_splitOn ':' t)
    have hfirst : t.takeWhile (· ≠ ':') ∈ (t.splitOn ':').dropLast := by
      rw [hparts, List.dropLast_cons_of_ne_nil]
      · exact List.mem_cons_self
      · rintro rfl
        simp [hparts] at hthree
    refine ⟨(t.dropWhile (· ≠ ':')).tail, ?_, hinit _ hfirst⟩
    have hcolon : ':' ∈ t := by
      by_contra hno
      simp [List.splitOn_eq_singleton hno] at hthree
    have hdrop : t.dropWhile (· ≠ ':') ≠ [] := fun hnil => by
      simpa using List.dropWhile_eq_nil_iff.mp hnil ':' hcolon
    obtain ⟨d, rest, hd⟩ := List.exists_cons_of_ne_nil hdrop
    obtain rfl : d = ':' := by
      have hhead := List.head_dropWhile_not (· ≠ ':') hdrop
      simp only [hd, List.head_cons] at hhead
      simpa using hhead
    calc t = t.takeWhile (· ≠ ':') ++ t.dropWhile (· ≠ ':') :=
          (List.takeWhile_append_dropWhile).symm
      _ = _ := by rw [hd, List.tail_cons]
  unfold parseV6 at h
  split_ifs at h
  split at h
  · exact hgroups h
  · split_ifs at h
    obtain ⟨rest, heq, hhex⟩ := hgroups h
    -- the scope id comes after the first colon
    have hsplit : text = (text.takeWhile (· ≠ '%')).takeWhile (· ≠ ':') ++
        ':' :: (rest ++ text.dropWhile (· ≠ '%')) := by
      conv_lhs => rw [← List.takeWhile_append_dropWhile (p := (· ≠ '%')) (l := text), heq]
      simp
    have hno : ∀ c ∈ (text.takeWhile (· ≠ '%')).takeWhile (· ≠ ':'), c ≠ ':' := fun c hc => by
      simpa using List.mem_takeWhile_imp hc
    have hfirst : text.takeWhile (· ≠ ':') = (text.takeWhile (· ≠ '%')).takeWhile (· ≠ ':') := by
      conv_lhs => rw [hsplit]
      rw [List.takeWhile_append_of_pos (by simpa using hno), List.takeWhile_cons_of_neg (by simp),
        List.append_nil]
    rw [hfirst]
    exact ⟨_, hsplit, hhex⟩

/-! ### Dotted decimal notation -/

/-- `str` of an IPv4 address. -/
def toText (ip : BitVec 32) : List Char :=
  ['.'].intercalate
    [ Nat.toDigits 10 (ip.toNat / 16777216), Nat.toDigits 10 (ip.toNat / 65536 % 256),
      Nat.toDigits 10 (ip.toNat / 256 % 256), Nat.toDigits 10 (ip.toNat % 256) ]

theorem parseOctet_toDigits {n : ℕ} (h : n < 256) : parseOctet (Nat.toDigits 10 n) = some n := by
  have hall : ∀ k : Fin 256, parseOctet (Nat.toDigits 10 k) = some k.val := by decide +kernel
  exact hall ⟨n, h⟩

/-- **What is written is read back.** -/
theorem parseV4_toText (ip : BitVec 32) : parseV4 (toText ip) = some ip := by
  have hdigits : ∀ {n : ℕ}, n < 256 → ∀ c ∈ Nat.toDigits 10 n, c.isDigit = true := fun hn =>
    isDigit_of_parseOctet (Option.isSome_of_eq_some (parseOctet_toDigits hn))
  have ha : ip.toNat / 16777216 < 256 := by have := ip.isLt; omega
  have hb : ip.toNat / 65536 % 256 < 256 := Nat.mod_lt _ (by decide)
  have hc : ip.toNat / 256 % 256 < 256 := Nat.mod_lt _ (by decide)
  have hd : ip.toNat % 256 < 256 := Nat.mod_lt _ (by decide)
  have hdot : ∀ {n : ℕ}, n < 256 → '.' ∉ Nat.toDigits 10 n := fun hn hmem =>
    absurd (hdigits hn '.' hmem) (by decide)
  have hslash : '/' ∉ toText ip := by
    have hno : ∀ {n : ℕ}, n < 256 → '/' ∉ Nat.toDigits 10 n := fun hn hmem =>
      absurd (hdigits hn '/' hmem) (by decide)
    simp [toText, List.intercalate, List.intersperse, hno ha, hno hb, hno hc, hno hd]
  unfold parseV4
  rw [if_neg hslash, toText, List.splitOn_intercalate]
  · simp only [List.mapM_cons, List.mapM_nil, parseOctet_toDigits ha, parseOctet_toDigits hb,
      parseOctet_toDigits hc, parseOctet_toDigits hd, Option.pure_def, Option.bind_eq_bind,
      Option.bind_some]
    congr 1
    apply BitVec.eq_of_toNat_eq
    rw [BitVec.toNat_ofNat]
    have := ip.isLt
    omega
  · intro l hl
    simp only [List.mem_cons, List.not_mem_nil, or_false] at hl
    rcases hl with rfl | rfl | rfl | rfl
    · exact hdot ha
    · exact hdot hb
    · exact hdot hc
    · exact hdot hd
  · exact List.cons_ne_nil _ _

end IpAddress
