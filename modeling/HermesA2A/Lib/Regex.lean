import Mathlib.Data.List.Infix
import Mathlib.Data.List.TakeWhile

/-!
# Regular expressions with backtracking priority

The fragment of Python's `re` in which every repetition is over a single
character class.  `Regex.prefixes r prev t` lists, in the order a backtracking
matcher tries them, the prefixes of `t` that `r` matches when the character
before `t` is `prev`; the first of them is *the* match.  `Regex.Lang` is the
order-free reading, and `mem_prefixes` says the two agree.

`sub` is `re.sub`: scan from the left, replace each match, copy what is not
matched.  A pattern that could match the empty text is excluded by the type
(`Pattern`), so a replaced match always makes progress.

## What a substitution leaves behind

`free_sub` answers when the result of a substitution contains no match of some
pattern `q`.  A match in the result lies in copied text, starts inside a
replacement, or runs from copied text into a replacement.  The three cases are
the hypotheses: the copied text had no match, no word of `q` starts inside the
replacement (`dies`, decidable), and a word of `q` that runs into the
replacement could have run into the replaced text as well (`Cut`).
-/

/-- A regular expression whose repetitions are over single characters. -/
inductive Regex
  /-- Matches nothing at all. -/
  | void
  /-- Matches the empty text. -/
  | eps
  /-- One character of a class. -/
  | chr (p : Char → Bool)
  | cat (r s : Regex)
  | alt (r s : Regex)
  /-- `[p]*`, longest first. -/
  | many (p : Char → Bool)
  /-- `[p]*?`, shortest first. -/
  | manyLazy (p : Char → Bool)
  /-- `^` in multiline mode. -/
  | lineStart

namespace Regex

/-- `r?`, greedy. -/
def opt (r : Regex) : Regex := alt r eps

/-- `[p]+`, greedy. -/
def plus (p : Char → Bool) : Regex := cat (chr p) (many p)

/-- `[p]{n,}`, greedy. -/
def atLeast (n : ℕ) (p : Char → Bool) : Regex := n.repeat (cat (chr p)) (many p)

/-- The character before what follows `u`. -/
def lastOr (prev : Option Char) (u : List Char) : Option Char := u.getLast? <|> prev

/-- The matched prefixes of `t`, in backtracking order. -/
def prefixes : Regex → Option Char → List Char → List (List Char)
  | void, _, _ => []
  | eps, _, _ => [[]]
  | chr _, _, [] => []
  | chr p, _, c :: _ => if p c then [[c]] else []
  | cat r s, prev, t =>
      (r.prefixes prev t).flatMap fun u =>
        (s.prefixes (lastOr prev u) (t.drop u.length)).map (u ++ ·)
  | alt r s, prev, t => r.prefixes prev t ++ s.prefixes prev t
  | many p, _, t => (t.takeWhile p).inits.reverse
  | manyLazy p, _, t => (t.takeWhile p).inits
  | lineStart, prev, _ => if prev = none ∨ prev = some '\n' then [[]] else []

/-- The words a regular expression matches, given the character before them. -/
def Lang : Regex → Option Char → List Char → Prop
  | void, _, _ => False
  | eps, _, w => w = []
  | chr p, _, w => ∃ c, p c ∧ w = [c]
  | cat r s, prev, w => ∃ u v, w = u ++ v ∧ r.Lang prev u ∧ s.Lang (lastOr prev u) v
  | alt r s, prev, w => r.Lang prev w ∨ s.Lang prev w
  | many p, _, w => ∀ c ∈ w, p c
  | manyLazy p, _, w => ∀ c ∈ w, p c
  | lineStart, prev, w => w = [] ∧ (prev = none ∨ prev = some '\n')

private theorem prefix_takeWhile_iff {p : Char → Bool} {w t : List Char} :
    w <+: t.takeWhile p ↔ w <+: t ∧ ∀ c ∈ w, p c := by
  constructor
  · intro h
    exact ⟨h.trans (List.takeWhile_prefix p), fun c hc => List.mem_takeWhile_imp (h.subset hc)⟩
  · rintro ⟨⟨s, rfl⟩, hp⟩
    exact ⟨s.takeWhile p, (List.takeWhile_append_of_pos hp).symm⟩

/-- **The matcher finds exactly the words.** -/
theorem mem_prefixes {r : Regex} :
    ∀ {prev : Option Char} {t w : List Char},
      w ∈ r.prefixes prev t ↔ w <+: t ∧ r.Lang prev w := by
  induction r with
  | void => intro prev t w; simp [prefixes, Lang]
  | eps =>
      intro prev t w
      simp only [prefixes, Lang, List.mem_singleton]
      exact ⟨fun h => ⟨h ▸ List.nil_prefix, h⟩, And.right⟩
  | chr p =>
      intro prev t w
      cases t with
      | nil =>
          simp only [prefixes, Lang, List.not_mem_nil, false_iff, List.prefix_nil]
          rintro ⟨rfl, c, -, h⟩
          cases h
      | cons c t =>
          simp only [prefixes, Lang]
          constructor
          · intro h
            split at h
            · rename_i hp
              obtain rfl := List.mem_singleton.mp h
              exact ⟨⟨t, rfl⟩, c, hp, rfl⟩
            · cases h
          · rintro ⟨hpre, d, hd, rfl⟩
            obtain ⟨s, hs⟩ := hpre
            obtain ⟨rfl, -⟩ := List.cons.inj hs
            rw [if_pos hd]
            exact List.mem_singleton.mpr rfl
  | cat r s ihr ihs =>
      intro prev t w
      simp only [prefixes, Lang, List.mem_flatMap, List.mem_map]
      constructor
      · rintro ⟨u, hu, v, hv, rfl⟩
        obtain ⟨⟨x, rfl⟩, hru⟩ := ihr.mp hu
        obtain ⟨hpre, hsv⟩ := ihs.mp hv
        rw [List.drop_left] at hpre
        exact ⟨(List.prefix_append_right_inj u).mpr hpre, u, v, rfl, hru, hsv⟩
      · rintro ⟨hpre, u, v, rfl, hru, hsv⟩
        refine ⟨u, ihr.mpr ⟨(List.prefix_append u v).trans hpre, hru⟩, v, ihs.mpr ⟨?_, hsv⟩, rfl⟩
        obtain ⟨x, rfl⟩ := hpre
        rw [List.append_assoc, List.drop_left]
        exact List.prefix_append v x
  | alt r s ihr ihs =>
      intro prev t w
      simp only [prefixes, Lang, List.mem_append, ihr, ihs, and_or_left]
  | many p =>
      intro prev t w
      simp only [prefixes, Lang, List.mem_reverse, List.mem_inits, prefix_takeWhile_iff]
  | manyLazy p =>
      intro prev t w
      simp only [prefixes, Lang, List.mem_inits, prefix_takeWhile_iff]
  | lineStart =>
      intro prev t w
      simp only [prefixes, Lang]
      split
      · rename_i h
        simp only [List.mem_singleton, h, and_true]
        exact ⟨fun hw => ⟨hw ▸ List.nil_prefix, hw⟩, And.right⟩
      · rename_i h
        simp [h]

/-! ## Substitution -/

/-- Could the expression match the empty text? -/
def nullable : Regex → Bool
  | void => false
  | eps => true
  | chr _ => false
  | cat r s => r.nullable && s.nullable
  | alt r s => r.nullable || s.nullable
  | many _ => true
  | manyLazy _ => true
  | lineStart => true

theorem not_lang_nil {r : Regex} :
    r.nullable = false → ∀ {prev : Option Char}, ¬ r.Lang prev [] := by
  induction r with
  | void => intro _ prev h; exact h
  | chr p =>
      intro _ prev h
      obtain ⟨c, -, hc⟩ := h
      cases hc
  | cat r s ihr ihs =>
      intro hnull prev h
      obtain ⟨u, v, huv, hu, hv⟩ := h
      obtain ⟨rfl, rfl⟩ := List.append_eq_nil_iff.mp huv.symm
      rw [nullable, Bool.and_eq_false_iff] at hnull
      exact hnull.elim (fun hr => ihr hr hu) (fun hs => ihs hs hv)
  | alt r s ihr ihs =>
      intro hnull prev h
      rw [nullable, Bool.or_eq_false_iff] at hnull
      exact h.elim (ihr hnull.1) (ihs hnull.2)
  | eps => intro h; cases h
  | many p => intro h; cases h
  | manyLazy p => intro h; cases h
  | lineStart => intro h; cases h

/-- The scan behind `re.sub`: `skip` characters of the current match are still
to be dropped. -/
def subFrom (r : Regex) (rep : List Char) : Option Char → ℕ → List Char → List Char
  | _, _, [] => []
  | _, skip + 1, c :: t => subFrom r rep (some c) skip t
  | prev, 0, c :: t =>
      match (r.prefixes prev (c :: t)).head? with
      | none => c :: subFrom r rep (some c) 0 t
      | some w => rep ++ subFrom r rep (some c) (w.length - 1) t

/-- Does the expression match anywhere in the text? -/
def searchFrom (r : Regex) : Option Char → List Char → Bool
  | prev, [] => (r.prefixes prev []).head?.isSome
  | prev, c :: t => (r.prefixes prev (c :: t)).head?.isSome || searchFrom r (some c) t

end Regex

/-- A regular expression no match of which is empty. -/
structure Pattern where
  regex : Regex
  consumes : regex.nullable = false := by rfl

namespace Pattern

/-- `pattern.search(text) is not None`. -/
def search (p : Pattern) (text : List Char) : Bool := p.regex.searchFrom none text

/-- `pattern.sub(rep, text)`. -/
def sub (p : Pattern) (rep text : List Char) : List Char := p.regex.subFrom rep none 0 text

end Pattern

namespace Regex

/-! ## Expressions without context -/

/-- No part of the expression looks at the character before the match. -/
def plain : Regex → Bool
  | void => true
  | eps => true
  | chr _ => true
  | cat r s => r.plain && s.plain
  | alt r s => r.plain && s.plain
  | many _ => true
  | manyLazy _ => true
  | lineStart => false

/-- Without context, the character before a word does not matter. -/
theorem lang_congr {r : Regex} : r.plain = true →
    ∀ {prev prev' : Option Char} {w : List Char}, r.Lang prev w → r.Lang prev' w := by
  induction r with
  | cat r s ihr ihs =>
      intro hplain prev prev' w h
      rw [plain, Bool.and_eq_true] at hplain
      obtain ⟨u, v, rfl, hu, hv⟩ := h
      exact ⟨u, v, rfl, ihr hplain.1 hu, ihs hplain.2 hv⟩
  | alt r s ihr ihs =>
      intro hplain prev prev' w h
      rw [plain, Bool.and_eq_true] at hplain
      exact h.imp (ihr hplain.1) (ihs hplain.2)
  | lineStart => intro h; cases h
  | void => intro _ _ _ _ h; exact h
  | eps => intro _ _ _ _ h; exact h
  | chr p => intro _ _ _ _ h; exact h
  | many p => intro _ _ _ _ h; exact h
  | manyLazy p => intro _ _ _ _ h; exact h

theorem lastOr_cons (prev : Option Char) (c : Char) (u : List Char) :
    lastOr prev (c :: u) = lastOr (some c) u := by
  unfold lastOr
  rw [List.getLast?_cons]
  cases u.getLast? <;> rfl

/-- **The search finds a word wherever there is one.** -/
theorem searchFrom_iff {r : Regex} : ∀ {prev : Option Char} {t : List Char},
    r.searchFrom prev t = true ↔ ∃ u w v, t = u ++ w ++ v ∧ r.Lang (lastOr prev u) w := by
  have hhere : ∀ {prev t},
      (r.prefixes prev t).head?.isSome = true ↔ ∃ w, w <+: t ∧ r.Lang prev w := by
    intro prev t
    rw [List.isSome_head?]
    refine Iff.trans ⟨List.exists_mem_of_ne_nil _, fun ⟨w, hw⟩ => List.ne_nil_of_mem hw⟩ ?_
    exact exists_congr fun w => mem_prefixes
  intro prev t
  induction t generalizing prev with
  | nil =>
      rw [searchFrom, hhere]
      constructor
      · rintro ⟨w, hw, hlang⟩
        obtain rfl := List.prefix_nil.mp hw
        exact ⟨[], [], [], rfl, hlang⟩
      · rintro ⟨u, w, v, heq, hlang⟩
        obtain ⟨huw, rfl⟩ := List.append_eq_nil_iff.mp heq.symm
        obtain ⟨rfl, rfl⟩ := List.append_eq_nil_iff.mp huw
        exact ⟨[], List.nil_prefix, hlang⟩
  | cons c t ih =>
      rw [searchFrom, Bool.or_eq_true, hhere, ih]
      constructor
      · rintro (⟨w, ⟨v, hv⟩, hlang⟩ | ⟨u, w, v, rfl, hlang⟩)
        · exact ⟨[], w, v, hv.symm, hlang⟩
        · exact ⟨c :: u, w, v, rfl, by rwa [lastOr_cons]⟩
      · rintro ⟨_ | ⟨d, u⟩, w, v, heq, hlang⟩
        · exact Or.inl ⟨w, ⟨v, heq.symm⟩, hlang⟩
        · obtain ⟨rfl, rfl⟩ := List.cons.inj heq
          rw [lastOr_cons] at hlang
          exact Or.inr ⟨u, w, v, rfl, hlang⟩

/-- No part of the text is a word of the expression. -/
def Free (r : Regex) (t : List Char) : Prop := ∀ w, w <:+: t → ¬ r.Lang none w

theorem Free.of_infix {r : Regex} {s t : List Char} (h : r.Free t) (hs : s <:+: t) : r.Free s :=
  fun w hw => h w (hw.trans hs)

/-- A text free of the expression is copied. -/
theorem subFrom_eq_self {r : Regex} (hplain : r.plain = true) (rep : List Char) :
    ∀ {t : List Char} {prev : Option Char}, r.Free t → r.subFrom rep prev 0 t = t := by
  intro t
  induction t with
  | nil => intro prev _; rfl
  | cons c t ih =>
      intro prev hfree
      have hnone : (r.prefixes prev (c :: t)).head? = none := by
        rw [List.head?_eq_none_iff, List.eq_nil_iff_forall_not_mem]
        intro w hw
        obtain ⟨hpre, hlang⟩ := mem_prefixes.mp hw
        exact hfree w hpre.isInfix (lang_congr hplain hlang)
      rw [subFrom, hnone, ih (hfree.of_infix (List.infix_cons List.infix_rfl))]

/-! ## Words that start inside a replacement -/

/-- The expression matches nothing, as far as its shape tells. -/
def isVoid : Regex → Bool
  | void => true
  | cat r s => r.isVoid || s.isVoid
  | alt r s => r.isVoid && s.isVoid
  | _ => false

theorem not_lang_of_isVoid {r : Regex} : r.isVoid = true →
    ∀ {prev : Option Char} {w : List Char}, ¬ r.Lang prev w := by
  induction r with
  | void => intro _ _ _ h; exact h
  | cat r s ihr ihs =>
      intro hvoid prev w h
      obtain ⟨u, v, -, hu, hv⟩ := h
      rw [isVoid, Bool.or_eq_true] at hvoid
      exact hvoid.elim (fun hr => ihr hr hu) (fun hs => ihs hs hv)
  | alt r s ihr ihs =>
      intro hvoid prev w h
      rw [isVoid, Bool.and_eq_true] at hvoid
      exact h.elim (ihr hvoid.1) (ihs hvoid.2)
  | eps => intro h; cases h
  | chr p => intro h; cases h
  | many p => intro h; cases h
  | manyLazy p => intro h; cases h
  | lineStart => intro h; cases h

/-- What is left to match after a first character. -/
def deriv (c : Char) : Regex → Regex
  | void => void
  | eps => void
  | chr p => if p c then eps else void
  | cat r s => if r.nullable then alt (cat (r.deriv c) s) (s.deriv c) else cat (r.deriv c) s
  | alt r s => alt (r.deriv c) (s.deriv c)
  | many p => if p c then many p else void
  | manyLazy p => if p c then many p else void
  | lineStart => void

theorem lang_deriv {r : Regex} : r.plain = true → ∀ {c : Char} {prev : Option Char} {w : List Char},
    r.Lang prev (c :: w) → (r.deriv c).Lang (some c) w := by
  induction r with
  | void => intro _ _ _ _ h; exact h
  | eps => intro _ _ _ _ h; cases h
  | chr p =>
      intro _ c prev w h
      obtain ⟨d, hd, hw⟩ := h
      obtain ⟨rfl, rfl⟩ := List.cons.inj hw
      simp [deriv, hd, Lang]
  | cat r s ihr ihs =>
      intro hplain c prev w h
      rw [plain, Bool.and_eq_true] at hplain
      obtain ⟨u, v, huv, hu, hv⟩ := h
      cases u with
      | nil =>
          have hnull : r.nullable = true := by
            by_contra hn
            exact not_lang_nil (Bool.not_eq_true _ ▸ hn) hu
          rw [deriv, if_pos hnull]
          rw [List.nil_append] at huv
          subst huv
          exact Or.inr (ihs hplain.2 hv)
      | cons d u =>
          obtain ⟨rfl, rfl⟩ := List.cons.inj huv
          have hcat : (cat (r.deriv c) s).Lang (some c) (u ++ v) :=
            ⟨u, v, rfl, ihr hplain.1 hu, lang_congr hplain.2 hv⟩
          rw [deriv]
          split
          · exact Or.inl hcat
          · exact hcat
  | alt r s ihr ihs =>
      intro hplain c prev w h
      rw [plain, Bool.and_eq_true] at hplain
      exact h.imp (ihr hplain.1) (ihs hplain.2)
  | many p =>
      intro _ c prev w h
      have hc : p c = true := h c List.mem_cons_self
      rw [deriv, if_pos hc]
      exact fun d hd => h d (List.mem_cons_of_mem _ hd)
  | manyLazy p =>
      intro _ c prev w h
      have hc : p c = true := h c List.mem_cons_self
      rw [deriv, if_pos hc]
      exact fun d hd => h d (List.mem_cons_of_mem _ hd)
  | lineStart => intro h; cases h

theorem plain_deriv {r : Regex} (c : Char) : r.plain = true → (r.deriv c).plain = true := by
  induction r with
  | cat r s ihr ihs =>
      intro h
      rw [plain, Bool.and_eq_true] at h
      rw [deriv]
      split <;> simp [plain, ihr h.1, ihs h.2, h.2]
  | alt r s ihr ihs =>
      intro h
      rw [plain, Bool.and_eq_true] at h
      simp [deriv, plain, ihr h.1, ihs h.2]
  | chr p => intro _; rw [deriv]; split <;> rfl
  | many p => intro _; rw [deriv]; split <;> rfl
  | manyLazy p => intro _; rw [deriv]; split <;> rfl
  | void => intro _; rfl
  | eps => intro _; rfl
  | lineStart => intro h; cases h

/-- No word of the expression is comparable with `s`: reading `s`, the matcher
fails before it has matched anything. -/
def dies : Regex → List Char → Bool
  | r, [] => r.isVoid
  | r, c :: s => !r.nullable && (r.deriv c).dies s

theorem not_lang_of_dies : ∀ {s : List Char} {r : Regex}, r.plain = true → r.dies s = true →
    ∀ {y w : List Char} {prev : Option Char}, w <+: s ++ y → ¬ r.Lang prev w := by
  intro s
  induction s with
  | nil => intro r _ hdies y w prev _; exact not_lang_of_isVoid hdies
  | cons c s ih =>
      intro r hplain hdies y w prev hpre hlang
      rw [dies, Bool.and_eq_true, Bool.not_eq_true'] at hdies
      cases w with
      | nil => exact not_lang_nil hdies.1 hlang
      | cons d w =>
          rw [List.cons_append, List.cons_prefix_cons] at hpre
          obtain ⟨rfl, hpre⟩ := hpre
          exact ih (plain_deriv d hplain) hdies.2 hpre (lang_deriv hplain hlang)

/-! ## Words that run into a replacement -/

/-- No class of the expression contains the character. -/
def avoids (e : Char) : Regex → Bool
  | chr p => !p e
  | cat r s => r.avoids e && s.avoids e
  | alt r s => r.avoids e && s.avoids e
  | many p => !p e
  | manyLazy p => !p e
  | _ => true

theorem notMem_of_avoids {e : Char} {r : Regex} : r.avoids e = true →
    ∀ {prev : Option Char} {w : List Char}, r.Lang prev w → e ∉ w := by
  induction r with
  | void => intro _ _ _ h; cases h
  | eps => rintro _ _ _ rfl; exact List.not_mem_nil
  | chr p =>
      rintro havoid _ _ ⟨c, hc, rfl⟩ hmem
      obtain rfl := List.mem_singleton.mp hmem
      simp [avoids, hc] at havoid
  | cat r s ihr ihs =>
      rintro havoid _ _ ⟨u, v, rfl, hu, hv⟩ hmem
      rw [avoids, Bool.and_eq_true] at havoid
      exact (List.mem_append.mp hmem).elim (ihr havoid.1 hu) (ihs havoid.2 hv)
  | alt r s ihr ihs =>
      intro havoid _ _ h
      rw [avoids, Bool.and_eq_true] at havoid
      exact h.elim (ihr havoid.1) (ihs havoid.2)
  | many p =>
      intro havoid _ _ h hmem
      simp [avoids, h e hmem] at havoid
  | manyLazy p =>
      intro havoid _ _ h hmem
      simp [avoids, h e hmem] at havoid
  | lineStart => rintro _ _ _ ⟨rfl, -⟩; exact List.not_mem_nil

/-- A word that contains `e` can be cut short there, with any character of `D` in
the place of `e`. -/
def Cut (e : Char) (D : Char → Prop) (r : Regex) : Prop :=
  ∀ (prev : Option Char) (x y : List Char), r.Lang prev (x ++ e :: y) →
    ∀ d, D d → r.Lang prev (x ++ [d])

theorem Cut.of_avoids {e : Char} {D : Char → Prop} {r : Regex} (h : r.avoids e = true) :
    r.Cut e D :=
  fun _ _ _ hlang => absurd (by simp) (notMem_of_avoids h hlang)

/-- The cut of a composite whose first part avoids `e` is a cut of the second. -/
theorem Cut.cat {e : Char} {D : Char → Prop} {r s : Regex} (hr : r.avoids e = true)
    (hs : s.Cut e D) : (r.cat s).Cut e D := by
  rintro prev x y ⟨u, v, huv, hu, hv⟩ d hd
  rcases List.append_eq_append_iff.mp huv with ⟨z, rfl, hz⟩ | ⟨z, rfl, rfl⟩
  · -- `e` inside the first part
    cases z with
    | nil =>
        obtain rfl : e :: y = v := by simpa using hz
        exact ⟨x, [d], rfl, by simpa using hu, hs _ [] y (by simpa using hv) d hd⟩
    | cons f z =>
        obtain ⟨rfl, -⟩ := List.cons.inj hz
        exact absurd (by simp) (notMem_of_avoids hr hu)
  · exact ⟨u, z ++ [d], by simp, hu, hs _ z y hv d hd⟩

/-- A non-empty run of a class that contains `D` can be cut anywhere. -/
theorem Cut.plus {e : Char} {D : Char → Prop} {p : Char → Bool} (hD : ∀ d, D d → p d = true) :
    (plus p).Cut e D := by
  rintro prev x y ⟨u, v, huv, ⟨c, hc, rfl⟩, hv⟩ d hd
  cases x with
  | nil => exact ⟨[d], [], rfl, ⟨d, hD d hd, rfl⟩, fun _ h => absurd h List.not_mem_nil⟩
  | cons b x =>
      obtain ⟨rfl, rfl⟩ := List.cons.inj huv
      refine ⟨[b], x ++ [d], rfl, ⟨b, hc, rfl⟩, fun a ha => ?_⟩
      rcases List.mem_append.mp ha with hx | hx
      · exact hv a (List.mem_append_left _ hx)
      · exact List.mem_singleton.mp hx ▸ hD d hd

/-- Every word starts with a character of `D`. -/
def Heads (D : Char → Prop) (r : Regex) : Prop :=
  ∀ (prev : Option Char) (c : Char) (w : List Char), r.Lang prev (c :: w) → D c

theorem Heads.chr {D : Char → Prop} {p : Char → Bool} (h : ∀ c, p c = true → D c) :
    (chr p).Heads D := by
  rintro prev c w ⟨d, hd, hw⟩
  obtain ⟨rfl, -⟩ := List.cons.inj hw
  exact h c hd

theorem Heads.cat {D : Char → Prop} {r s : Regex} (hnull : r.nullable = false) (hr : r.Heads D) :
    (r.cat s).Heads D := by
  rintro prev c w ⟨u, v, huv, hu, -⟩
  cases u with
  | nil => exact absurd hu (not_lang_nil hnull)
  | cons d u =>
      obtain ⟨rfl, -⟩ := List.cons.inj huv
      exact hr prev c u hu

theorem Heads.alt {D : Char → Prop} {r s : Regex} (hr : r.Heads D) (hs : s.Heads D) :
    (r.alt s).Heads D :=
  fun prev c w h => h.elim (hr prev c w) (hs prev c w)

/-! ## What a substitution leaves behind -/

private theorem infix_append_cases {w a b : List Char} (h : w <:+: a ++ b) :
    (∃ s, s ≠ [] ∧ s <:+ a ∧ w <+: s ++ b) ∨ w <:+: b := by
  obtain ⟨s, hw, hs⟩ := List.infix_iff_prefix_suffix.mp h
  obtain ⟨u, hu⟩ := hs
  rcases List.append_eq_append_iff.mp hu with ⟨z, rfl, rfl⟩ | ⟨z, rfl, rfl⟩
  · rcases List.eq_nil_or_concat z with rfl | hz
    · exact Or.inr (by simpa using hw.isInfix)
    · refine Or.inl ⟨z, ?_, List.suffix_append u z, hw⟩
      obtain ⟨_, _, rfl⟩ := hz
      simp
  · exact Or.inr (hw.isInfix.trans (List.suffix_append z s).isInfix)

section Free

variable {q r : Regex} {e : Char} {rep : List Char} {D : Char → Prop}

/-- A word that reaches into the substituted text has a word of the original
text beside it.  The induction moves copied characters into `x`; it ends where
the first replacement begins. -/
private theorem exists_lang_of_subFrom (hcut : q.Cut e D) (hheads : r.Heads D)
    (hnull : r.nullable = false) :
    ∀ {t : List Char} {prev : Option Char} {x w : List Char},
      w <+: x ++ r.subFrom (e :: rep) prev 0 t → q.Lang none w →
        ∃ w', w' <+: x ++ t ∧ q.Lang none w' := by
  intro t
  induction t with
  | nil => intro prev x w hw hlang; exact ⟨w, hw, hlang⟩
  | cons c t ih =>
      intro prev x w hw hlang
      rw [subFrom] at hw
      cases hhead : (r.prefixes prev (c :: t)).head? with
      | none =>
          rw [hhead] at hw
          have hw' : w <+: (x ++ [c]) ++ r.subFrom (e :: rep) (some c) 0 t := by simpa using hw
          obtain ⟨w', hpre, hlang'⟩ := ih hw' hlang
          exact ⟨w', by simpa using hpre, hlang'⟩
      | some m =>
          rw [hhead] at hw
          obtain ⟨hm, hmlang⟩ := mem_prefixes.mp (List.mem_of_mem_head? hhead)
          have hc : D c := by
            cases m with
            | nil => exact absurd hmlang (not_lang_nil hnull)
            | cons d m =>
                obtain ⟨rfl, -⟩ := List.cons_prefix_cons.mp hm
                exact hheads _ _ _ hmlang
          obtain ⟨z, hz⟩ := hw
          rcases List.append_eq_append_iff.mp hz with ⟨y, rfl, -⟩ | ⟨y, rfl, hy⟩
          · exact ⟨w, by simp, hlang⟩
          · cases y with
            | nil => exact ⟨x, List.prefix_append _ _, by simpa using hlang⟩
            | cons f y =>
                obtain ⟨rfl, -⟩ := List.cons.inj hy
                exact ⟨x ++ [c], by simp, hcut none x y hlang c hc⟩

/-- **What a substitution leaves behind.**  If a text copied by the scan has no
word of `q`, no word of `q` starts inside the replacement, and a word of `q`
that runs into the replacement can be cut at the text it replaced, then the
result has no word of `q`. -/
theorem free_subFrom (hq : q.plain = true) (hqnull : q.nullable = false) (hcut : q.Cut e D)
    (hheads : r.Heads D) (hnull : r.nullable = false)
    (hdies : ∀ s, s ≠ [] → s <:+ e :: rep → q.dies s = true) :
    ∀ {t : List Char} {prev : Option Char} {skip : ℕ},
      (∀ prev s, s <:+ t → r.prefixes prev s = [] → ∀ w, w <+: s → ¬ q.Lang none w) →
        q.Free (r.subFrom (e :: rep) prev skip t) := by
  intro t
  induction t with
  | nil =>
      intro prev skip _ w hw hlang
      have hnil : w = [] := by simpa [subFrom] using hw
      exact not_lang_nil hqnull (hnil ▸ hlang)
  | cons c t ih =>
      intro prev skip hcopied
      have ih' : ∀ {prev : Option Char} {skip : ℕ}, q.Free (r.subFrom (e :: rep) prev skip t) :=
        ih fun prev s hs => hcopied prev s (hs.trans (List.suffix_cons c t))
      cases skip with
      | succ skip => exact ih'
      | zero =>
          intro w hw hlang
          rw [subFrom] at hw
          cases hhead : (r.prefixes prev (c :: t)).head? with
          | none =>
              rw [hhead] at hw
              rcases List.infix_cons_iff.mp hw with hpre | hin
              · obtain ⟨w', hw', hlang'⟩ := exists_lang_of_subFrom (x := [c]) hcut hheads hnull
                  hpre hlang
                exact hcopied prev (c :: t) List.suffix_rfl (List.head?_eq_none_iff.mp hhead) w'
                  hw' hlang'
              · exact ih' w hin hlang
          | some m =>
              rw [hhead] at hw
              rcases infix_append_cases hw with ⟨s, hs, hsuf, hpre⟩ | hin
              · exact not_lang_of_dies hq (hdies s hs hsuf) hpre hlang
              · exact ih' w hin hlang

end Free

end Regex

namespace Pattern

variable {p q : Pattern} {e : Char} {rep : List Char} {D : Char → Prop}

/-- A substitution leaves none of its own matches. -/
theorem free_sub_self (hplain : p.regex.plain = true) (hcut : p.regex.Cut e D)
    (hheads : p.regex.Heads D) (hdies : ∀ s, s ≠ [] → s <:+ e :: rep → p.regex.dies s = true)
    (t : List Char) : p.regex.Free (p.sub (e :: rep) t) := by
  refine Regex.free_subFrom hplain p.consumes hcut hheads p.consumes hdies ?_
  intro prev s _ hnone w hw hlang
  have hmem : w ∈ p.regex.prefixes prev s :=
    Regex.mem_prefixes.mpr ⟨hw, Regex.lang_congr hplain hlang⟩
  rw [hnone] at hmem
  cases hmem

/-- A substitution creates no match of another pattern. -/
theorem free_sub_of_free (hplain : q.regex.plain = true) (hcut : q.regex.Cut e D)
    (hheads : p.regex.Heads D) (hdies : ∀ s, s ≠ [] → s <:+ e :: rep → q.regex.dies s = true)
    {t : List Char} (hfree : q.regex.Free t) : q.regex.Free (p.sub (e :: rep) t) :=
  Regex.free_subFrom hplain q.consumes hcut hheads p.consumes hdies
    fun _ _ hs _ w hw => hfree w (hw.isInfix.trans hs.isInfix)

/-- A text is free of a pattern if a search finds nothing. -/
theorem search_eq_false_iff (hplain : p.regex.plain = true) {t : List Char} :
    p.search t = false ↔ p.regex.Free t := by
  unfold search
  rw [Bool.eq_false_iff, ne_eq, Regex.searchFrom_iff]
  constructor
  · rintro hnot w ⟨u, v, rfl⟩ hlang
    exact hnot ⟨u, w, v, rfl, Regex.lang_congr hplain hlang⟩
  · rintro hfree ⟨u, w, v, rfl, hlang⟩
    exact hfree w (List.infix_append u w v) (Regex.lang_congr hplain hlang)

/-- A text without a match is left alone. -/
theorem sub_eq_self (hplain : p.regex.plain = true) {t : List Char} (hfree : p.regex.Free t) :
    p.sub rep t = t :=
  Regex.subFrom_eq_self hplain rep hfree

end Pattern
