import HermesA2A.Lib.Regex

/-!
# What a substitution copies

`Lib/Regex` answers when the result of a substitution is free of a pattern whose
words are cut off by the replacement.  A pattern with a gap, `A .*? B`, is not of
this kind: its gap runs across replacements.  What cannot run across one is a word
of `A` or of `B`, and so both lie in *copied* text.

* `exists_copied_of_subFrom`: a word that neither starts inside the replacement
  nor contains its first character is copied, together with the position the scan
  was at, where the expression did not match.
* `Inert`: the property of an expression that no substitution creates a word of
  it.  `Inert.of_cut` and `Inert.of_gap` are its two introduction rules.
* `free_sub_self_of_inert`, `free_sub_of_inert`: what is run leaves none of its own
  matches, and creates none of another's.
* `search_sub_self_of_line`: the same of a pattern anchored at line starts.
-/

namespace Regex

section Copied

variable {r : Regex} {e : Char} {rep u : List Char}

/-- A word without the replacement's first character at the head of the result
stands at the head of the text. -/
private theorem exists_copied_of_prefix :
    ∀ {u : List Char}, e ∉ u → ∀ {t Y : List Char} {prev : Option Char},
      r.subFrom (e :: rep) prev 0 t = u ++ Y →
        ∃ prev' Y', t = u ++ Y' ∧ r.subFrom (e :: rep) prev' 0 Y' = Y := by
  intro u
  induction u with
  | nil => intro _ t Y prev h; exact ⟨prev, t, rfl, h⟩
  | cons c u ih =>
      intro he t Y prev h
      cases t with
      | nil => simp [subFrom] at h
      | cons d t =>
          rw [subFrom] at h
          cases hhead : (r.prefixes prev (d :: t)).head? with
          | none =>
              rw [hhead] at h
              obtain ⟨rfl, htail⟩ := List.cons.inj h
              obtain ⟨prev', Y', rfl, hY⟩ := ih (fun hu => he (List.mem_cons_of_mem _ hu)) htail
              exact ⟨prev', Y', rfl, hY⟩
          | some m =>
              rw [hhead] at h
              obtain ⟨rfl, -⟩ := List.cons.inj h
              exact absurd List.mem_cons_self he

/-- What is known of a word `u` that the scan of `t` copied, with `X` before it and `Y`
after it in the result: where it stood in `t`, that the expression did not match there,
and which character came before. -/
def Copied (r : Regex) (rep : List Char) (prev : Option Char) (skip : ℕ)
    (t X u Y : List Char) : Prop :=
  ∃ prev₀ X' prev' Y', t = X' ++ u ++ Y' ∧ r.subFrom rep prev' 0 Y' = Y ∧
    r.prefixes prev₀ (u ++ Y') = [] ∧ (skip = 0 → X = [] → prev₀ = prev) ∧
    ∀ d, X.getLast? = some d → rep.getLast? ≠ some d → prev₀ = some d

/-- **A word that avoids the replacement is copied.**  The induction is on the scanned
text; a replacement lies wholly before the word. -/
theorem exists_copied_of_subFrom (hne : u ≠ []) (htail : e ∉ u.tail)
    (hstart : ∀ s, s ≠ [] → s <:+ e :: rep → ∀ y, ¬ u <+: s ++ y) :
    ∀ {t X Y : List Char} {prev : Option Char} {skip : ℕ},
      r.subFrom (e :: rep) prev skip t = X ++ u ++ Y →
        Copied r (e :: rep) prev skip t X u Y := by
  intro t
  induction t with
  | nil =>
      intro X Y prev skip h
      rw [subFrom] at h
      exact absurd (List.append_eq_nil_iff.mp (List.append_eq_nil_iff.mp h.symm).1).2 hne
  | cons c t ih =>
      intro X Y prev skip h
      cases skip with
      | succ skip =>
          obtain ⟨prev₀, X', prev', Y', rfl, hY, hnone, -, hlast⟩ := ih h
          refine ⟨prev₀, c :: X', prev', Y', by simp, hY, hnone, ?_, hlast⟩
          intro hskip
          exact absurd hskip (Nat.succ_ne_zero skip)
      | zero =>
          rw [subFrom] at h
          cases hhead : (r.prefixes prev (c :: t)).head? with
          | none =>
              rw [hhead] at h
              cases X with
              | nil =>
                  obtain ⟨d, v, rfl⟩ := List.exists_cons_of_ne_nil hne
                  obtain ⟨rfl, hv⟩ := List.cons.inj h
                  obtain ⟨prev', Y', rfl, hY⟩ := exists_copied_of_prefix htail hv
                  refine ⟨prev, [], prev', Y', rfl, hY, List.head?_eq_none_iff.mp hhead,
                    fun _ _ => rfl, ?_⟩
                  intro a ha
                  rw [List.getLast?_nil] at ha
                  cases ha
              | cons d X =>
                  obtain ⟨rfl, hX⟩ := List.cons.inj h
                  obtain ⟨prev₀, X', prev', Y', rfl, hY, hnone, hfirst, hlast⟩ := ih hX
                  refine ⟨prev₀, c :: X', prev', Y', by simp, hY, hnone,
                    fun _ hnil => absurd hnil (List.cons_ne_nil c X), fun a ha hrep => ?_⟩
                  cases X with
                  | nil => rw [hfirst rfl rfl, ← ha, List.getLast?_singleton]
                  | cons b X => exact hlast a (by rwa [List.getLast?_cons_cons] at ha) hrep
          | some m =>
              rw [hhead, List.append_assoc] at h
              -- the replacement ends before the word, or the word starts inside it
              have hbefore : ∃ z, X = (e :: rep) ++ z ∧
                  r.subFrom (e :: rep) (some c) (m.length - 1) t = z ++ u ++ Y := by
                rcases List.append_eq_append_iff.mp h with ⟨z, rfl, hz⟩ | ⟨z, hX, hz⟩
                · exact ⟨z, rfl, by rw [hz, List.append_assoc]⟩
                · by_cases hnil : z = []
                  · subst hnil
                    exact ⟨[], by simpa using hX.symm, by simpa using hz.symm⟩
                  · have hpre : u <+: z ++ r.subFrom (e :: rep) (some c) (m.length - 1) t := ⟨Y, hz⟩
                    exact absurd hpre (hstart z hnil ⟨X, hX.symm⟩ _)
              obtain ⟨z, rfl, hz⟩ := hbefore
              obtain ⟨prev₀, X', prev', Y', rfl, hY, hnone, -, hlast⟩ := ih hz
              refine ⟨prev₀, c :: X', prev', Y', by simp, hY, hnone,
                fun _ hnil => absurd hnil (List.cons_ne_nil e (rep ++ z)), fun a ha hrep => ?_⟩
              rw [List.getLast?_append] at ha
              cases hz : z.getLast? with
              | none => rw [hz, Option.none_or] at ha; exact absurd ha hrep
              | some b => rw [hz, Option.some_or] at ha; exact hlast a (hz.trans ha) hrep

end Copied

/-! ## Expressions no substitution creates a word of -/

/-- **Inert.**  Whatever is replaced by `rep`, a word of `q` in the result means that the
scan left a word of `q` in place. -/
def Inert (rep : List Char) (q : Regex) : Prop :=
  ∀ r : Regex, r.nullable = false → ∀ (t : List Char) (prev : Option Char) (skip : ℕ),
    (∀ prev s, s <:+ t → r.prefixes prev s = [] → ∀ w, w <+: s → ¬ q.Lang none w) →
      q.Free (r.subFrom rep prev skip t)

variable {q : Regex} {e : Char} {rep : List Char}

/-- An expression whose words the replacement cuts off. -/
theorem Inert.of_cut (hplain : q.plain = true) (hnull : q.nullable = false)
    (hcut : q.Cut e fun _ => True) (hdies : ∀ s, s ≠ [] → s <:+ e :: rep → q.dies s = true) :
    q.Inert (e :: rep) :=
  fun _ hr _ _ _ hcopied =>
    free_subFrom hplain hnull hcut (fun _ _ _ _ => trivial) hr hdies hcopied

/-- The words of `q` are a word of `a`, anything, and a word of `b`. -/
def Gap (q a b : Regex) : Prop :=
  ∀ w, q.Lang none w ↔ ∃ u g v, w = u ++ g ++ v ∧ a.Lang none u ∧ b.Lang none v

/-- Words of the expression lie outside a replacement that starts with `e`, or around it. -/
structure Solid (e : Char) (rep : List Char) (a : Regex) : Prop where
  plain : a.plain = true
  consumes : a.nullable = false
  tail : ∀ w, a.Lang none w → e ∉ w.tail
  dies : ∀ s, s ≠ [] → s <:+ e :: rep → a.dies s = true

theorem Solid.copied {a r : Regex} (ha : a.Solid e rep) {u : List Char} (hu : a.Lang none u)
    {t X Y : List Char} {prev : Option Char} {skip : ℕ}
    (h : r.subFrom (e :: rep) prev skip t = X ++ u ++ Y) :
    Copied r (e :: rep) prev skip t X u Y := by
  refine exists_copied_of_subFrom ?_ (ha.tail u hu) (fun s hs hsuf y hpre => ?_) h
  · rintro rfl
    exact not_lang_nil ha.consumes hu
  · exact not_lang_of_dies ha.plain (ha.dies s hs hsuf) hpre hu

/-- **An expression with a gap.**  Its two ends are copied one after the other; in the
text, too, there is something between them. -/
theorem Inert.of_gap {a b : Regex} (hgap : q.Gap a b) (ha : a.Solid e rep) (hb : b.Solid e rep) :
    q.Inert (e :: rep) := by
  intro r _ t prev skip hcopied w hw hlang
  obtain ⟨X, Z, hX⟩ := hw
  obtain ⟨u, g, v, rfl, hu, hv⟩ := (hgap w).mp hlang
  obtain ⟨prev₀, X', prev', Y', rfl, hY, hnone, -⟩ :=
    ha.copied hu (X := X) (Y := g ++ v ++ Z) (by rw [← hX]; simp)
  obtain ⟨-, g', -, Z', rfl, -⟩ := hb.copied hv hY
  refine hcopied prev₀ (u ++ (g' ++ v ++ Z')) ⟨X', by simp⟩ hnone (u ++ g' ++ v)
    ⟨Z', by simp⟩ ?_
  exact (hgap _).mpr ⟨u, g', v, rfl, hu, hv⟩

end Regex

namespace Pattern

variable {p q : Pattern} {rep : List Char}

/-- A substitution leaves none of its own matches. -/
theorem free_sub_self_of_inert (hplain : p.regex.plain = true) (hinert : p.regex.Inert rep)
    (t : List Char) : p.regex.Free (p.sub rep t) := by
  refine hinert p.regex p.consumes t none 0 fun prev s _ hnone w hw hlang => ?_
  have hmem : w ∈ p.regex.prefixes prev s :=
    Regex.mem_prefixes.mpr ⟨hw, Regex.lang_congr hplain hlang⟩
  rw [hnone] at hmem
  exact List.not_mem_nil hmem

/-- A substitution creates no match of an inert pattern. -/
theorem free_sub_of_inert (hinert : q.regex.Inert rep) {t : List Char} (hfree : q.regex.Free t) :
    q.regex.Free (p.sub rep t) :=
  hinert p.regex p.consumes t none 0 fun _ _ hs _ w hw => hfree w (hw.isInfix.trans hs.isInfix)

/-- A pattern anchored at line starts leaves none of its own matches.  A line start in
front of copied text is one of the original text: the replacement ends no line. -/
theorem search_sub_self_of_line {b : Regex} {e : Char} (hp : p.regex = .cat .lineStart b)
    (hb : b.Solid e rep) (hrep : (e :: rep).getLast? ≠ some '\n') (t : List Char) :
    p.search (p.sub (e :: rep) t) = false := by
  unfold search
  rw [Bool.eq_false_iff, ne_eq, Regex.searchFrom_iff]
  rintro ⟨X, w, Y, hX, hlang⟩
  rw [hp] at hlang
  obtain ⟨_, w, rfl, ⟨rfl, hline⟩, hw⟩ := hlang
  obtain ⟨prev₀, X', -, Y', rfl, -, hnone, hfirst, hlast⟩ := hb.copied
    (Regex.lang_congr hb.plain hw) (X := X) hX
  have hstart : prev₀ = none ∨ prev₀ = some '\n' := by
    cases hX : X.getLast? with
    | none => exact Or.inl (hfirst rfl (List.getLast?_eq_none_iff.mp hX))
    | some d =>
        obtain rfl : d = '\n' := by simpa [Regex.lastOr, hX] using hline
        exact Or.inr (hlast _ hX hrep)
  have hmem : w ∈ p.regex.prefixes prev₀ (w ++ Y') := by
    rw [hp]
    exact Regex.mem_prefixes.mpr
      ⟨List.prefix_append w Y', [], w, rfl, ⟨rfl, hstart⟩, Regex.lang_congr hb.plain hw⟩
  rw [hnone] at hmem
  exact List.not_mem_nil hmem

end Pattern
