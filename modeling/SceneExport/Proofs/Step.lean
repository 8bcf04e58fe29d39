import SceneExport.Failure

/-!
# What a step keeps and where it leads

Two ways to speak of a step that may change a state and may fail.  `Keeps` says that the step does
not change a part of the state (a `view` of it); most steps keep most parts, and that is shown one
function after the other by the rules of this file.  `Leads` is a triple: a step that succeeds in
a state of one kind ends in a state of another kind.  A step that keeps a view leads from whatever
holds of the view to the same (`Keeps.leads`).

What a failed step changed stays changed.  This matters where a failure is caught, so `Keeps` can
speak of failures too: of all with `always`, else of none.  `Maintains` says that something holds
after a step if it held before, however the step ends.

`Decides` is a triple for steps that may fail where it can be told beforehand whether they do.  Of
two steps in a row the verdict of the first counts, and that of the second only if the first returns
(`Decides.bind_or`).  In a loop the first element with a verdict decides (`Decides.forIn`).
-/

namespace SceneExport

open List

/-! ### Outcomes of look-ups -/

variable {β γ : Type} {b : β} {xs : List β} {i : Nat} {ys : List β} {verdict : Option Failure}

theorem need_ok {failure : Failure} {o : Option β} (h : need failure o = .ok b) : o = some b := by
  cases o with
  | none => cases h
  | some c => cases h; rfl

/-- What is found in a list is found in a longer one. -/
theorem getElem?_of_initial (h : xs <+: ys) (hi : xs[i]? = some b) : ys[i]? = some b := by
  obtain ⟨rest, rfl⟩ := h
  rw [List.getElem?_append_left (List.getElem?_eq_some_iff.1 hi).1, hi]

/-- What is found in a list with one element more was there, or it is that element. -/
theorem getElem?_concat_cases {x : β} (h : (xs ++ [x])[i]? = some b) : xs[i]? = some b ∨
    i = xs.length ∧ b = x := by
  rcases Nat.lt_trichotomy i xs.length with hi | rfl | hi
  · exact .inl ((getElem?_append_left hi).symm.trans h)
  · exact .inr ⟨rfl, by simpa [eq_comm] using h⟩
  · rw [getElem?_eq_none (by simp; omega)] at h
    cases h

/-- A number is read off its digits. -/
theorem Text.repr_injective {m n : Nat} (h : m.repr = n.repr) : m = n := by
  have hdigi := congrArg String.toList h
  rw [Nat.toList_repr, Nat.toList_repr] at hdigi
  rw [← Nat.ofDigitChars_ten_toDigits (n := m), hdigi, Nat.ofDigitChars_ten_toDigits]

/-- A list is divided at the first place where an element stands in one way. -/
theorem append_cons_inj_left {c d x y : List β} {z : β} (hc : z ∉ c) (hd : z ∉ d)
    (h : c ++ z :: x = d ++ z :: y) :
    c = d ∧ x = y := by
  rcases append_eq_append_iff.1 h with ⟨e, rfl, he⟩ | ⟨e, rfl, he⟩ <;> cases e <;> simp_all

namespace Outcome

variable {x : Except Failure β} {f : β → Except Failure γ} {ys : List γ}

theorem bind_ok {c : γ} (h : (x >>= f) = .ok c) : ∃ b, x = .ok b ∧ f b = .ok c := by
  cases x with
  | error e => cases h
  | ok b => exact ⟨b, rfl, h⟩

theorem mapM_cons_ok {x : β} (h : (x :: xs).mapM f = .ok ys) :
    ∃ y zs, f x = .ok y ∧ xs.mapM f = .ok zs ∧ ys = y :: zs := by
  rw [mapM_cons] at h
  obtain ⟨y, hy, h⟩ := bind_ok h
  obtain ⟨zs, hz, h⟩ := bind_ok h
  cases h
  exact ⟨y, zs, hy, hz, rfl⟩

theorem mapM_eq_ok (g : β → γ) (h : ∀ x ∈ xs, f x = .ok (g x)) : xs.mapM f = .ok (xs.map g) := by
  induction xs with
  | nil => rfl
  | cons x xs ih =>
    rw [mapM_cons, h x mem_cons_self, ih fun y hy => h y (mem_cons_of_mem _ hy)]
    rfl

theorem mem_of_mapM_ok (h : xs.mapM f = .ok ys) {x : β} (hx : x ∈ xs) : ∃ y ∈ ys, f x = .ok y := by
  induction xs generalizing ys with
  | nil => cases hx
  | cons a xs ih =>
    obtain ⟨y, zs, hy, hz, rfl⟩ := mapM_cons_ok h
    rcases mem_cons.1 hx with rfl | hx
    · exact ⟨y, mem_cons_self, hy⟩
    · obtain ⟨z, hz', hf⟩ := ih hz hx
      exact ⟨z, mem_cons_of_mem _ hz', hf⟩

theorem length_of_mapM_ok (h : xs.mapM f = .ok ys) : ys.length = xs.length := by
  induction xs generalizing ys with
  | nil =>
    cases h
    rfl
  | cons a xs ih =>
    obtain ⟨y, zs, -, hz, rfl⟩ := mapM_cons_ok h
    simp [ih hz]

/-- If the computation succeeds, its result is of a kind. -/
def Gives (kind : β → Prop) (x : Except Failure β) : Prop :=
  ∀ b, x = .ok b → kind b

namespace Gives

variable {kind : β → Prop} {kind' : γ → Prop}

theorem pure (h : kind b) : Gives kind (pure b) := by
  intro c hc
  cases hc
  exact h

theorem bind (hx : Gives kind x) (hf : ∀ b, kind b → Gives kind' (f b)) :
    Gives kind' (x >>= f) := by
  intro c hc
  obtain ⟨b, hb, hc⟩ := bind_ok hc
  exact hf b (hx b hb) c hc

/-- What comes first does not matter. -/
theorem skip (hf : ∀ b, Gives kind' (f b)) : Gives kind' (x >>= f) := by
  intro c hc
  obtain ⟨b, -, hc⟩ := bind_ok hc
  exact hf b c hc

theorem mapM (hf : ∀ b, Gives kind' (f b)) (xs : List β) : Gives (fun ys => ∀ y ∈ ys, kind' y)
    (xs.mapM f) := by
  induction xs with
  | nil => exact .pure (by simp)
  | cons x xs ih =>
    intro ys h
    obtain ⟨y, zs, hy, hz, rfl⟩ := mapM_cons_ok h
    exact forall_mem_cons.2 ⟨hf x y hy, ih zs hz⟩

end Gives

end Outcome

variable {σ β γ δ : Type}

/-! ### Outcomes of steps -/

variable {step : EStateM Failure σ β} {s s' : σ} {e : Failure} {f : β → EStateM Failure σ γ}
  {xs : List β} {next : β → EStateM Failure σ δ} {view : σ → γ} {g : β → γ} {s1 : σ} {c : γ}

theorem bind_ok {next : β → EStateM Failure σ γ} (h : (step >>= next) s = .ok c s') :
    ∃ b s1, step s = .ok b s1 ∧ next b s1 = .ok c s' := by
  change EStateM.bind step next s = .ok c s' at h
  unfold EStateM.bind at h
  cases hs : step s with
  | ok b s1 =>
    rw [hs] at h
    exact ⟨b, s1, rfl, h⟩
  | error e s1 =>
    rw [hs] at h
    cases h

theorem bind_of_ok {b : β} (h : step s = .ok b s1) (next : β → EStateM Failure σ γ) :
    (step >>= next) s = next b s1 := by
  simp only [bind, EStateM.bind, h]

theorem bind_of_error (h : step s = .error e s1) (next : β → EStateM Failure σ γ) :
    (step >>= next) s = .error e s1 := by
  simp only [bind, EStateM.bind, h]

theorem get_bind (next : σ → EStateM Failure σ β) (s : σ) : (get >>= next) s = next s s :=
  rfl

/-- A step that only looks leaves the state to the next one. -/
theorem look_ok {next : β → EStateM Failure σ γ} {P : β → Prop}
    (hstep : ∀ {b s1}, step s = .ok b s1 → s1 = s ∧ P b) (h : (step >>= next) s = .ok c s') : ∃ b,
    P b ∧ next b s = .ok c s' := by
  obtain ⟨b, s1, hb, hc⟩ := bind_ok h
  obtain ⟨rfl, hP⟩ := hstep hb
  exact ⟨b, hP, hc⟩

theorem bind_error {next : β → EStateM Failure σ γ} (h : (step >>= next) s = .error e s') :
    step s = .error e s' ∨ ∃ b s1, step s = .ok b s1 ∧ next b s1 = .error e s' := by
  cases hs : step s with
  | ok b s1 => exact .inr ⟨b, s1, rfl, (bind_of_ok hs next).symm.trans h⟩
  | error e s1 =>
    cases (bind_of_error hs next).symm.trans h
    exact .inl rfl

theorem map_ok {f : β → γ} (h : (f <$> step) s = .ok c s') : ∃ b, step s = .ok b s' ∧ f b = c := by
  change EStateM.map f step s = .ok c s' at h
  unfold EStateM.map at h
  cases hs : step s with
  | ok b s1 =>
    rw [hs] at h
    cases h
    exact ⟨b, rfl, rfl⟩
  | error e s1 =>
    rw [hs] at h
    cases h

/-- Whether a step succeeds with a result and a state that pass a test. -/
def yields (step : EStateM Failure σ β) (s : σ) (test : β → σ → Bool) : Bool :=
  match step s with
  | .ok b s' => test b s'
  | .error _ _ => false

theorem of_yields {test : β → σ → Bool} (h : yields step s test = true) :
    ∃ b s', step s = .ok b s' ∧ test b s' = true := by
  unfold yields at h
  split at h
  · next b s' hs => exact ⟨b, s', hs, h⟩
  · cases h

/-- The outcome of a step on given data, found by evaluating it. -/
theorem exists_yield (step : EStateM Failure σ β) (s : σ) (test : β → σ → Bool)
    (h : yields step s test = true := by decide +kernel) :
    ∃ b s', step s = .ok b s' ∧ test b s' = true :=
  of_yields h

theorem exists_ok (step : EStateM Failure σ β) (s : σ)
    (h : yields step s (fun _ _ => true) = true := by decide +kernel) :
    ∃ b s', step s = .ok b s' := by
  obtain ⟨b, s', hs, -⟩ := of_yields h
  exact ⟨b, s', hs⟩

theorem mapM_run {P : σ → Prop} (h : ∀ x ∈ xs, ∀ s, P s → ∃ s', f x s = .ok (g x) s' ∧ P s')
    (hs : P s) :
    ∃ s', xs.mapM f s = .ok (xs.map g) s' ∧ P s' := by
  induction xs generalizing s with
  | nil => exact ⟨s, rfl, hs⟩
  | cons x xs ih =>
    obtain ⟨s1, hx, hs1⟩ := h x mem_cons_self s hs
    obtain ⟨s', hxs, hs'⟩ := ih (fun y hy => h y (mem_cons_of_mem _ hy)) hs1
    refine ⟨s', ?_, hs'⟩
    rw [mapM_cons, bind_of_ok hx, bind_of_ok hxs]
    rfl

theorem mapM_apply (h : ∀ x ∈ xs, f x s = .ok (g x) s) : xs.mapM f s = .ok (xs.map g) s := by
  obtain ⟨_, hrun, rfl⟩ := mapM_run (P := (· = s)) (fun x hx t ht => ⟨t, ht ▸ h x hx, ht⟩) rfl
  exact hrun

/-- A list of steps that succeeds has succeeded up to each of them. -/
theorem mapM_ok_take {ys : List γ} (h : xs.mapM f s = .ok ys s') {x : β} (hx : xs[i]? = some x) :
    ∃ y s1 s2, (xs.take i).mapM f s = .ok (ys.take i) s1 ∧ f x s1 = .ok y s2 ∧ ys[i]? = some y := by
  induction xs generalizing ys s i with
  | nil => cases hx
  | cons x' xs ih =>
    rw [mapM_cons] at h
    obtain ⟨y, s1, hy, h1⟩ := bind_ok h
    obtain ⟨ys, s2, hys, h2⟩ := bind_ok h1
    cases h2
    cases i with
    | zero =>
      cases hx
      exact ⟨y, s, s1, rfl, hy, rfl⟩
    | succ i =>
      obtain ⟨y', s3, s4, hpre, hy', hi⟩ := ih hys hx
      refine ⟨y', s3, s4, ?_, hy', hi⟩
      rw [take_succ_cons, mapM_cons, bind_of_ok hy, bind_of_ok hpre]
      rfl

/-! ### Parts of the state that stay the same -/

/-- The step does not change what `view` shows of the state; with `always` that is also so if it
fails. -/
def Keeps (always : Bool) (view : σ → γ) (step : EStateM Failure σ β) : Prop :=
  ∀ s, match step s with
    | .ok _ s' => view s' = view s
    | .error _ s' => always = true → view s' = view s

namespace Keeps

variable {always : Bool} {f : β → EStateM Failure σ PUnit} {b : β}

theorem ok (h : Keeps always view step) (hs : step s = .ok b s') : view s' = view s := by
  have := h s
  rwa [hs] at this

theorem error (h : Keeps true view step) (hs : step s = .error e s') : view s' = view s := by
  have := h s
  rw [hs] at this
  exact this rfl

theorem of_ok (h : ∀ s b s', step s = .ok b s' → view s' = view s) : Keeps false view step := by
  intro s
  cases hs : step s with
  | ok b s' => exact h s b s' hs
  | error e s' => exact fun hf => absurd hf Bool.false_ne_true

theorem mono {less : σ → δ} (f : γ → δ) (hf : ∀ s, less s = f (view s))
    (h : Keeps always view step) : Keeps always less step := by
  intro s
  have hs := h s
  cases hr : step s with
  | ok b s1 =>
    rw [hr] at hs
    show less s1 = less s
    rw [hf, hf, hs]
  | error e s1 =>
    rw [hr] at hs
    intro ha
    rw [hf, hf, hs ha]

theorem pure : Keeps always view (pure b) := fun _ => rfl

theorem throw {e : Failure} : Keeps always view (throw e : EStateM Failure σ β) := fun _ _ => rfl

theorem get : Keeps always view (get : EStateM Failure σ σ) := fun _ => rfl

theorem modify {f : σ → σ} (hf : ∀ s, view (f s) = view s) : Keeps always view
    (modify f : EStateM Failure σ Unit) :=
  hf

/-- A step that looks at the state first goes on in the state that it saw. -/
theorem of_get {next : σ → EStateM Failure σ β} (h : ∀ s, match next s s with
      | .ok _ s' => view s' = view s
      | .error _ s' => always = true → view s' = view s) :
    Keeps always view (Bind.bind MonadState.get next) :=
  h

theorem bind (h : Keeps always view step) (hn : ∀ b, Keeps always view (next b)) :
    Keeps always view (step >>= next) := by
  intro s
  have hs := h s
  change match EStateM.bind step next s with
    | .ok _ s' => view s' = view s
    | .error _ s' => always = true → view s' = view s
  unfold EStateM.bind
  cases hr : step s with
  | error e s1 => simpa only [hr] using hs
  | ok b s1 =>
    rw [hr] at hs
    have hb := hn b s1
    cases hr' : next b s1 with
    | ok c s2 =>
      rw [hr'] at hb
      simp only [hr']
      rw [hb, hs]
    | error e s2 =>
      rw [hr'] at hb
      simp only [hr']
      intro ha
      rw [hb ha, hs]

theorem map (f : β → δ) (h : Keeps always view step) : Keeps always view (f <$> step) := by
  exact h.bind fun b => .pure

/-! ### Rules for lists -/

theorem mapM {f : β → EStateM Failure σ δ} (hf : ∀ b, Keeps always view (f b)) (xs : List β) :
    Keeps always view (xs.mapM f) := by
  induction xs with
  | nil => exact .pure
  | cons x xs ih =>
    rw [mapM_cons]
    exact (hf x).bind fun y => ih.bind fun ys => .pure

theorem foldlM {f : δ → β → EStateM Failure σ δ} (hf : ∀ d b, Keeps always view (f d b))
    (xs : List β) (d : δ) : Keeps always view (xs.foldlM f d) := by
  induction xs generalizing d with
  | nil => exact .pure
  | cons x xs ih => exact (hf d x).bind ih

theorem forM_mem (hf : ∀ b ∈ xs, Keeps always view (f b)) : Keeps always view (xs.forM f) := by
  induction xs with
  | nil => exact .pure
  | cons x xs ih =>
    exact (hf x mem_cons_self).bind fun _ => ih fun b hb => hf b (mem_cons_of_mem _ hb)

theorem forIn {f : β → δ → EStateM Failure σ (ForInStep δ)} (hf : ∀ b d, Keeps always view (f b d))
    (xs : List β) (d : δ) : Keeps always view (forIn xs d f) := by
  induction xs generalizing d with
  | nil => exact .pure
  | cons x xs ih =>
    rw [forIn_cons]
    refine (hf x d).bind fun step => ?_
    cases step with
    | done d => exact .pure
    | yield d => exact ih d

theorem option {f : β → EStateM Failure σ δ} (hf : ∀ b, Keeps always view (f b)) {o : Option β} :
    Keeps always view (o.mapM f) := by
  cases o with
  | none => exact .pure
  | some b => exact (hf b).map some

end Keeps

/-! ### Where a step leads -/

/-- If the step succeeds in a state of kind `P`, then its result and the state after it are of kind
`Q`. -/
def Leads (P : σ → Prop) (step : EStateM Failure σ β) (Q : β → σ → Prop) : Prop :=
  ∀ s, P s → ∀ b s', step s = .ok b s' → Q b s'

theorem Keeps.leads (h : Keeps false view step) (P : γ → Prop) :
    Leads (fun s => P (view s)) step fun _ s => P (view s) := by
  intro s hP b s' hs
  rwa [h.ok hs]

namespace Leads

variable {P P' : σ → Prop} {Q : β → σ → Prop} {R : δ → σ → Prop} {q : Prop}

theorem pure {b : β} (h : ∀ s, P s → Q b s) : Leads P (pure b) Q := by
  intro s hP _ _ hs
  cases hs
  exact h s hP

theorem done {b : β} : Leads P (Pure.pure b) fun _ => P := .pure fun _ h => h

theorem throw {e : Failure} : Leads P (throw e) Q := by
  intro s _ _ _ hs
  cases hs

/-- What is known and does not depend on the state can be put before the step. -/
theorem of_fact (h : q → Leads P step Q) : Leads (fun s => P s ∧ q) step Q := fun s hs =>
    h hs.2 s hs.1

/-- What does not depend on the state is known before and after the step. -/
theorem given (h : q → Leads P step fun _ => P') : Leads (fun s => P s ∧ q) step fun _ s => P' s ∧
    q :=
  fun s hs b s' hr => ⟨h hs.2 s hs.1 b s' hr, hs.2⟩

theorem given_and (h : q → Leads P step fun b s => P' s ∧ Q b s) :
    Leads (fun s => P s ∧ q) step fun b s => (P' s ∧ q) ∧ Q b s :=
  fun s hs b s' hr => (h hs.2 s hs.1 b s' hr).imp_left fun h => ⟨h, hs.2⟩

theorem of_exists {I : Type} {P : I → σ → Prop} (h : ∀ i, Leads (P i) step Q) :
    Leads (fun s => ∃ i, P i s) step Q :=
  fun s ⟨i, hs⟩ => h i s hs

theorem bind (h : Leads P step Q) (hn : ∀ b, Leads (Q b) (next b) R) : Leads P (step >>= next)
    R := by
  intro s hP d s' hs
  obtain ⟨b, s1, h1, h2⟩ := bind_ok hs
  exact hn b s1 (h s hP b s1 h1) d s' h2

/-- Two steps of which the end is known come first. -/
theorem bind_bind {Q : γ → σ → Prop} {next : γ → EStateM Failure σ δ} (h : Leads P (step >>= f) Q)
    (hn : ∀ c, Leads (Q c) (next c) R) : Leads P (step >>= fun b => f b >>= next) R := by
  rw [← bind_assoc]
  exact h.bind hn

theorem map (f : β → δ) (h : Leads P step Q) : Leads P (f <$> step) fun d s => ∃ b, Q b s ∧
    d = f b := by
  intro s hP d s' hs
  obtain ⟨b, hb, rfl⟩ := map_ok hs
  exact ⟨b, h s hP b s' hb, rfl⟩

/-- What holds whatever the result is holds of another result. -/
theorem map_any {S : σ → Prop} (f : β → δ) (h : Leads P step fun _ => S) : Leads P (f <$> step)
    fun _ => S := by
  intro s hP d s' hs
  obtain ⟨b, hb, rfl⟩ := map_ok hs
  exact h s hP b s' hb

theorem keeping {V : γ → Prop} (h : Keeps false view step)
    (hn : ∀ b, Leads (fun s => V (view s)) (next b) R) :
    Leads (fun s => V (view s)) (step >>= next) R :=
  (h.leads V).bind hn

theorem mapM (hf : ∀ b, Leads P (f b) fun _ => P) (xs : List β) : Leads P (xs.mapM f) fun _ =>
    P := by
  induction xs with
  | nil => exact .done
  | cons x xs ih =>
    rw [mapM_cons]
    exact (hf x).bind fun _ => ih.bind fun _ => .done

theorem forM_mem {f : β → EStateM Failure σ PUnit} (hf : ∀ b ∈ xs, Leads P (f b) fun _ => P) :
    Leads P (xs.forM f) fun _ => P := by
  induction xs with
  | nil => exact .done
  | cons x xs ih =>
    exact (hf x mem_cons_self).bind fun _ => ih fun b hb => hf b (mem_cons_of_mem _ hb)

variable {Q' : β → σ → Prop} (I : List β → δ → σ → Prop)

theorem and (h : Leads P step Q) (h' : Leads P' step Q') : Leads (fun s => P s ∧ P' s) step
    fun b s => Q b s ∧ Q' b s :=
  fun s hs b s' hr => ⟨h s hs.1 b s' hr, h' s hs.2 b s' hr⟩

theorem mapM_all {kind : γ → Prop} (hf : ∀ b, Leads P (f b) fun c s => P s ∧ kind c) {xs : List β} :
    Leads P (xs.mapM f) fun cs s => P s ∧ ∀ c ∈ cs, kind c := by
  induction xs with
  | nil => exact .pure fun _ h => ⟨h, by simp⟩
  | cons x xs ih =>
    rw [mapM_cons]
    refine (hf x).bind fun c => .of_fact fun hc => ih.bind fun cs => .pure fun s hs => ?_
    exact ⟨hs.1, by simpa using ⟨hc, hs.2⟩⟩

/-- As `mapM`, for an invariant that knows the results so far and which elements are still to
come. -/
theorem mapM_loop (I : List β → List γ → σ → Prop)
    (hf : ∀ b rest cs, Leads (I (b :: rest) cs) (f b) fun c s => I rest (cs ++ [c]) s)
    (xs : List β) (cs : List γ) : Leads (I xs cs) (xs.mapM f) fun cs' s => I [] (cs ++ cs') s := by
  induction xs generalizing cs with
  | nil => exact .pure fun s h => by simpa using h
  | cons x xs ih =>
    rw [mapM_cons]
    refine (hf x xs cs).bind fun c => (ih (cs ++ [c])).bind fun cs' => .pure fun s hs => ?_
    simpa using hs

/-- A loop over a list, for an invariant that knows which elements are still to come. -/
theorem loop {f : β → δ → EStateM Failure σ (ForInStep δ)}
    (hf : ∀ b rest d, Leads (I (b :: rest) d) (f b d) fun r s => ∃ d', r = .yield d' ∧ I rest d' s)
    (xs : List β) (d : δ) : Leads (I xs d) (forIn xs d f) fun d s => I [] d s := by
  induction xs generalizing d with
  | nil => exact .pure fun _ h => h
  | cons x xs ih =>
    rw [forIn_cons]
    refine (hf x xs d).bind fun r => .of_exists fun d' => ?_
    rintro s ⟨rfl, hs⟩
    exact ih d' s hs

theorem foldlM {f : δ → β → EStateM Failure σ δ}
    (hf : ∀ b rest d, Leads (I (b :: rest) d) (f d b) fun d' s => I rest d' s) (xs : List β)
    (d : δ) :
    Leads (I xs d) (xs.foldlM f d) fun d s => I [] d s := by
  induction xs generalizing d with
  | nil => exact .pure fun _ h => h
  | cons x xs ih => exact (hf x xs d).bind ih

theorem forIn (I : δ → σ → Prop) {f : β → δ → EStateM Failure σ (ForInStep δ)}
    (hf : ∀ b d, Leads (I d) (f b d) fun r => I r.value) (xs : List β) (d : δ) :
    Leads (I d) (forIn xs d f) I := by
  induction xs generalizing d with
  | nil => exact .pure fun _ h => h
  | cons x xs ih =>
    rw [forIn_cons]
    refine (hf x d).bind fun r => ?_
    cases r with
    | done d => exact .pure fun _ h => h
    | yield d => exact ih d

theorem of_run {result : σ → β} {next : σ → σ} (h : ∀ s, step s = .ok (result s) (next s))
    (hq : ∀ s, P s → Q (result s) (next s)) : Leads P step Q := by
  intro s hs b s' hr
  rw [h s] at hr
  cases hr
  exact hq s hs

theorem mono (h : Leads P step Q) (hP : ∀ s, P' s → P s) (hQ : ∀ b s, Q b s → Q' b s) :
    Leads P' step Q' :=
  fun s hs b s' hr => hQ b s' (h s (hP s hs) b s' hr)

theorem pre (h : Leads P step Q) (hP : ∀ s, P' s → P s) : Leads P' step Q := h.mono hP fun _ _ h =>
    h

theorem post (h : Leads P step Q) (hQ : ∀ b s, Q b s → Q' b s) : Leads P step Q' :=
    h.mono (fun _ h => h) hQ

theorem also (h : Leads P step fun _ => P') : Leads P step fun _ s => P' s ∧ True :=
  h.post fun _ _ h => ⟨h, trivial⟩

end Leads

/-! ### What holds however a step ends -/

/-- A state of kind `P` is followed by a state of kind `P`, also if the step fails. -/
def Maintains (P : σ → Prop) (step : EStateM Failure σ β) : Prop :=
  ∀ s, P s → match step s with
    | .ok _ s' => P s'
    | .error _ s' => P s'

namespace Maintains

variable {P : σ → Prop}

theorem leads (h : Maintains P step) : Leads P step fun _ => P := by
  intro s hP b s' hs
  have := h s hP
  rwa [hs] at this

theorem error (h : Maintains P step) (hP : P s) (hs : step s = .error e s') : P s' := by
  have := h s hP
  rwa [hs] at this

theorem of_keeps {V : γ → Prop} (h : Keeps true view step) : Maintains (fun s => V (view s))
    step := by
  intro s hV
  cases hs : step s with
  | ok b s' =>
    show V (view s')
    rwa [h.ok hs]
  | error e s' =>
    show V (view s')
    rwa [h.error hs]

theorem bind (h : Maintains P step) (hn : ∀ b, Maintains P (next b)) :
    Maintains P (step >>= next) := by
  intro s hP
  have hs := h s hP
  change match EStateM.bind step next s with
    | .ok _ s' => P s'
    | .error _ s' => P s'
  unfold EStateM.bind
  cases hr : step s with
  | error e s1 => simpa only [hr] using hs
  | ok b s1 =>
    rw [hr] at hs
    exact hn b s1 hs

theorem forIn {f : β → δ → EStateM Failure σ (ForInStep δ)} (hf : ∀ b d, Maintains P (f b d))
    (xs : List β) (d : δ) : Maintains P (forIn xs d f) := by
  induction xs generalizing d with
  | nil => exact fun _ h => h
  | cons x xs ih =>
    rw [forIn_cons]
    refine (hf x d).bind fun r => ?_
    cases r with
    | done d => exact fun _ h => h
    | yield d => exact ih d

end Maintains

/-! ### Outcomes and messages

As long as a computation does not read the messages that were given before, its outcome
(`Logged.outcome`) does not depend on them (`Logged.Steady`). -/

variable {β γ δ : Type}

namespace Logged

variable {log log' : Log}

theorem lift_ok {x : Except Failure β} {b : β}
    (h : (liftM x : Logged β) log = .ok b log') : x = .ok b ∧ log' = log := by
  cases x with
  | ok a => cases h; exact ⟨rfl, rfl⟩
  | error e => cases h

/-- The outcome of a computation after some messages. -/
def outcomeAfter (log : Log) (step : Logged β) : Except Failure β :=
  match step log with
  | .ok b _ => .ok b
  | .error e _ => .error e

/-- The outcome of a computation. -/
def outcome (step : Logged β) : Except Failure β :=
  step.outcomeAfter #[]

/-- The outcome of the computation does not depend on the messages before. -/
def Steady (step : Logged β) : Prop :=
  ∀ log, step.outcomeAfter log = step.outcome

variable {step : Logged β}

theorem Steady.of_ok (h : step.Steady) {b : β} (hs : step log = .ok b log') : step.outcome =
    .ok b := by
  rw [← h log, outcomeAfter, hs]

namespace Steady

theorem pure {b : β} : Steady (pure b) := fun _ => rfl

theorem throw {e : Failure} : Steady (throw e : Logged β) := fun _ => rfl

theorem warn (text : String) : Steady (warn text) := fun _ => rfl

theorem lift {x : Except Failure β} : Steady (liftM x : Logged β) := by
  cases x with
  | ok b => exact .pure
  | error e => exact .throw

theorem bind {next : β → Logged γ} (h : Steady step) (hn : ∀ b, Steady (next b)) :
    Steady (step >>= next) := by
  have hbind : ∀ log, outcomeAfter log (step >>= next) = step.outcome >>= fun b =>
    (next b).outcome := by
    intro log
    rw [← h log]
    change (match EStateM.bind step next log with | .ok b _ => _ | .error e _ => _) = _
    unfold EStateM.bind outcomeAfter
    cases step log with
    | ok b log' => exact hn b log'
    | error e log' => rfl
  exact fun log => (hbind log).trans (hbind #[]).symm

theorem map (f : β → γ) (h : Steady step) : Steady (f <$> step) := by
  exact h.bind fun b => .pure

theorem mapM {f : β → Logged γ} (hf : ∀ b, Steady (f b)) (xs : List β) : Steady (xs.mapM f) := by
  induction xs with
  | nil => exact .pure
  | cons x xs ih =>
    rw [mapM_cons]
    exact (hf x).bind fun y => ih.bind fun ys => .pure

end Steady

end Logged

theorem Leads.liftLogged {P : Log → Prop} {x : Except Failure β} :
    Leads P (liftM x : Logged β) fun b log => P log ∧ x = .ok b := by
  intro log hP b log' h
  obtain ⟨hx, rfl⟩ := Logged.lift_ok h
  exact ⟨hP, hx⟩

/-! ### Steps whose end is known beforehand

A verdict is the failure of a step, or none if it returns. -/

variable {σ β γ δ : Type}

/-- A step ends as a verdict says: it fails for that reason, or without a verdict returns what is of
kind `Q`. -/
inductive Ends (Q : β → σ → Prop) : Option Failure → EStateM.Result Failure σ β → Prop
  | returns {b : β} {s : σ} (h : Q b s) : Ends Q none (.ok b s)
  | fails {e : Failure} {s : σ} : Ends Q (some e) (.error e s)

variable {Q : β → σ → Prop} {r : EStateM.Result Failure σ β}

theorem Ends.ok (h : Ends Q none r) : ∃ b s, r = .ok b s ∧ Q b s := by
  cases h with
  | returns h => exact ⟨_, _, rfl, h⟩

theorem Ends.ok_iff (h : Ends Q verdict r) : (∃ b s, r = .ok b s) ↔ verdict = none := by
  cases h with
  | returns h => simp
  | fails => simp

theorem Ends.error_iff (h : Ends Q verdict r) (e : Failure) : (∃ s, r = .error e s) ↔
    verdict = some e := by
  cases h with
  | returns h => simp
  | fails => simp [eq_comm]

/-- Begun in a state of kind `P`, the step ends as the verdict says. -/
def Decides (verdict : Option Failure) (P : σ → Prop) (step : EStateM Failure σ β)
    (Q : β → σ → Prop) : Prop :=
  ∀ s, P s → Ends Q verdict (step s)

namespace Decides

variable {P P' : σ → Prop} {Q' : β → σ → Prop} {R : δ → σ → Prop}

theorem pure {b : β} (h : ∀ s, P s → Q b s) : Decides none P (pure b) Q := fun s hs =>
    .returns (h s hs)

variable {step : EStateM Failure σ β} {next : β → EStateM Failure σ δ} {xs : List β}
  {f : β → δ → EStateM Failure σ (ForInStep δ)}

/-- A step that does not fail in a state of kind `P`. -/
theorem of_ok (h : ∀ s, P s → ∃ b s', step s = .ok b s' ∧ Q b s') : Decides none P step Q := by
  intro s hs
  obtain ⟨b, s', hb, hq⟩ := h s hs
  rw [hb]
  exact .returns hq

/-- What is known and does not depend on the state can be put before the step. -/
theorem of_fact {q : Prop} (h : q → Decides verdict P step Q) : Decides verdict (fun s => P s ∧ q)
    step Q :=
  fun s hs => h hs.2 s hs.1

theorem mono (h : Decides verdict P step Q) (hP : ∀ s, P' s → P s) (hQ : ∀ b s, Q b s → Q' b s) :
    Decides verdict P' step Q' := by
  intro s hs
  have he := h s (hP s hs)
  generalize step s = r at he
  cases he with
  | returns hq => exact .returns (hQ _ _ hq)
  | fails => exact .fails

theorem bind (h : Decides none P step Q) (hn : ∀ b, Decides verdict (Q b) (next b) R) :
    Decides verdict P (step >>= next) R := by
  intro s hs
  obtain ⟨b, s', hb, hq⟩ := (h s hs).ok
  rw [bind_of_ok hb]
  exact hn b s' hq

theorem bind_of_fails {e : Failure} (h : Decides (some e) P step Q) : Decides (some e) P
    (step >>= next) R := by
  intro s hs
  obtain ⟨s', hs'⟩ := ((h s hs).error_iff e).2 rfl
  rw [bind_of_error hs']
  exact .fails

theorem bind_or {verdict' : Option Failure} (h : Decides verdict P step Q)
    (hn : ∀ b, Decides verdict' (Q b) (next b) R) : Decides (verdict.or verdict') P (step >>= next)
    R := by
  cases verdict with
  | none => exact h.bind hn
  | some e => exact h.bind_of_fails

/-- A step that cannot fail comes last. -/
theorem bind_sure (h : Decides verdict P step Q) (hn : ∀ b, Decides none (Q b) (next b) R) :
    Decides verdict P (step >>= next) R :=
  Option.or_none (o := verdict) ▸ h.bind_or hn

/-! ### Loops whose end is known -/

/-- A loop over a list, for an invariant that knows which elements were there already. -/
theorem forIn (I : List β → δ → σ → Prop) (verdict : β → Option Failure)
    (hf : ∀ pre b post, xs = pre ++ b :: post → ∀ d,
      Decides (verdict b) (I pre d) (f b d) fun r s => ∃ d', r = .yield d' ∧ I (pre ++ [b]) d' s)
    (d : δ) : Decides (xs.findSome? verdict) (I [] d) (forIn xs d f) (I xs) := by
  suffices h : ∀ pre rest, xs = pre ++ rest → ∀ d,
      Decides (rest.findSome? verdict) (I pre d) (ForIn.forIn rest d f) (I xs) from h [] xs rfl d
  intro pre rest
  induction rest generalizing pre with
  | nil =>
    intro hxs d
    exact .pure fun s hs => by simpa [hxs] using hs
  | cons b rest ih =>
    intro hxs d
    rw [forIn_cons, findSome?_cons]
    have hrest := ih (pre ++ [b]) (by simp [hxs])
    cases hv : verdict b with
    | none =>
      refine bind (hv ▸ hf pre b rest hxs d) fun r => ?_
      rintro s ⟨d', rfl, hs⟩
      exact hrest d' s hs
    | some e => exact bind_of_fails (hv ▸ hf pre b rest hxs d)

/-- As `forIn`, for a loop that cannot fail. -/
theorem forIn_sure (I : List β → δ → σ → Prop) (hf : ∀ pre b post, xs = pre ++ b :: post → ∀ d,
    Decides none (I pre d) (f b d) fun r s => ∃ d', r = .yield d' ∧ I (pre ++ [b]) d' s) (d : δ) :
    Decides none (I [] d) (ForIn.forIn xs d f) (I xs) := by
  have h := forIn I (fun _ => none) hf d
  rwa [findSome?_eq_none_iff.2 fun _ _ => rfl] at h

theorem mapM (I : List β → σ → Prop) {f : β → EStateM Failure σ γ}
    (hf : ∀ pre b post, xs = pre ++ b :: post → Decides none (I pre) (f b) fun _ => I (pre ++ [b]))
    : Decides none (I []) (xs.mapM f) fun _ => I xs := by
  suffices h : ∀ pre rest, xs = pre ++ rest → Decides none (I pre) (rest.mapM f) fun _ => I xs from
    h [] xs rfl
  intro pre rest
  induction rest generalizing pre with
  | nil =>
    intro hxs
    exact .pure fun s hs => by simpa [hxs] using hs
  | cons b rest ih =>
    intro hxs
    rw [mapM_cons]
    refine (hf pre b rest hxs).bind fun _ => (ih (pre ++ [b]) (by simp [hxs])).bind fun _ => ?_
    exact .pure fun _ hs => hs

end Decides

end SceneExport
