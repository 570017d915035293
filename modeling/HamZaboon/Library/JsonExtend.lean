import HamZaboon.Library.JsonText

/-! # What stands behind a JSON text

A text, an array and an object end where they close, so what stands behind them
does not change them (`scanValue_append`, `scanObject_append`).  A number ends at
the first character that cannot continue it (`Stops`).

So a text that is one object begins with no other text that can be read
(`loads_of_prefix`): of a line that was cut short nothing is read.
-/

namespace HamZaboon.Library

/-- What stands behind a value cannot continue a number. -/
def Stops (s : List Char) : Prop :=
  ∀ c ∈ s.head?, isJsonDigit c = false ∧ c ≠ '.' ∧ c ≠ 'e' ∧ c ≠ 'E'

/-- What stands behind an accepted or too deep text does not change the scan. -/
def Extends {α : Type} (scan : List Char → Except ScanError (α × List Char)) : Prop :=
  ∀ s t, (∀ a r, scan s = .ok (a, r) → Stops r ∧ Stops (r ++ t)) → scan s ≠ .error .invalid →
    scan (s ++ t) = (scan s).map fun x => (x.1, x.2 ++ t)

theorem stops_nil : Stops [] := nofun

theorem Stops.append {r : List Char} (h : Stops r) (hne : r ≠ []) (t : List Char) :
    Stops (r ++ t) := by
  cases r with
  | nil => exact absurd rfl hne
  | cons c r => exact h

theorem stops_of_skipSpace {r s : List Char} {c : Char} (h : skipSpace r = c :: s)
    (hc : c ∈ [',', ']', '}', ':']) (t : List Char) : Stops r ∧ Stops (r ++ t) := by
  cases r with
  | nil => cases h
  | cons d r =>
    have hd : Stops (d :: r) := by
      intro x hx
      obtain rfl : d = x := Option.some.inj hx
      cases hspace : isJsonSpace d with
      | true =>
        have hd : d = ' ' ∨ d = '\t' ∨ d = '\n' ∨ d = '\r' := by
          simpa [isJsonSpace, or_assoc] using hspace
        rcases hd with rfl | rfl | rfl | rfl <;> decide
      | false =>
        rw [skipSpace, List.dropWhile_cons_of_neg (by simp [hspace])] at h
        obtain ⟨rfl, -⟩ := List.cons.inj h
        revert hc
        simp only [List.mem_cons, List.not_mem_nil, or_false]
        rintro (rfl | rfl | rfl | rfl) <;> decide
    exact ⟨hd, hd.append (List.cons_ne_nil d r) t⟩

/-! ## Spaces, texts and words -/

theorem skipSpace_append {s r : List Char} {c : Char} (h : skipSpace s = c :: r) (t : List Char) :
    skipSpace (s ++ t) = c :: r ++ t := by
  induction s with
  | nil => cases h
  | cons d s ih =>
    rw [skipSpace] at h
    rw [List.cons_append, skipSpace]
    cases hd : isJsonSpace d with
    | true =>
      rw [List.dropWhile_cons_of_pos hd] at h ⊢
      exact ih h
    | false =>
      rw [List.dropWhile_cons_of_neg (by simp [hd])] at h ⊢
      rw [← h]
      rfl

theorem skipSpace_append_of_scan {α : Type} {scan : List Char → Except ScanError α}
    (hnil : scan [] = .error .invalid) {s : List Char} (hs : scan (skipSpace s) ≠ .error .invalid)
    (t : List Char) : skipSpace (s ++ t) = skipSpace s ++ t := by
  cases hspace : skipSpace s with
  | nil => exact absurd (hspace ▸ hnil) hs
  | cons c r => rw [skipSpace_append hspace]

theorem scanUnits_append {s r : List Char} {units : List (Nat × Bool)}
    (h : scanUnits s = some (units, r)) (t : List Char) :
    scanUnits (s ++ t) = some (units, r ++ t) := by
  fun_induction scanUnits s generalizing units r with
  | case1 => cases h
  | case2 s =>
    obtain ⟨rfl, rfl⟩ := Prod.mk.inj (Option.some.inj h)
    rfl
  | case3 a b c d s ih =>
    obtain ⟨point, hpoint, h⟩ := Option.bind_eq_some_iff.mp h
    obtain ⟨⟨units', rest'⟩, hrest, h⟩ := Option.bind_eq_some_iff.mp h
    obtain ⟨rfl, rfl⟩ := Prod.mk.inj (Option.some.inj h)
    simp [scanUnits, hpoint, ih hrest]
  | case4 e s hu ih =>
    obtain ⟨point, hpoint, h⟩ := Option.bind_eq_some_iff.mp h
    obtain ⟨⟨units', rest'⟩, hrest, h⟩ := Option.bind_eq_some_iff.mp h
    obtain ⟨rfl, rfl⟩ := Prod.mk.inj (Option.some.inj h)
    have he : e ≠ 'u' := by
      rintro rfl
      cases hpoint
    rw [List.cons_append, List.cons_append, scanUnits.eq_4 _ _ (by simp [he])]
    simp [hpoint, ih hrest]
  | case5 => cases h
  | case6 c s hquote hu hletter hc ih =>
    obtain ⟨⟨units', rest'⟩, hrest, h⟩ := Option.bind_eq_some_iff.mp h
    obtain ⟨rfl, rfl⟩ := Prod.mk.inj (Option.some.inj h)
    have hslash : c ≠ '\\' := by
      rintro rfl
      exact hc (by simp)
    rw [List.cons_append, scanUnits.eq_5 _ _ hquote (by simp [hslash]) (by simp [hslash]), if_neg hc]
    simp [ih hrest]

theorem scanText_append (s t : List Char) (hs : scanText s ≠ .error .invalid) :
    scanText (s ++ t) = (scanText s).map fun x => (x.1, x.2 ++ t) := by
  unfold scanText at hs ⊢
  cases h : scanUnits s with
  | none => simp [h] at hs
  | some r =>
    obtain ⟨units, r⟩ := r
    rw [scanUnits_append h]
    rfl

theorem scanWord_append {word : List Char} {value : JsonTree} {s : List Char} (t : List Char)
    (hs : scanWord word value s ≠ .error .invalid) :
    scanWord word value (s ++ t) = (scanWord word value s).map fun x => (x.1, x.2 ++ t) := by
  unfold scanWord at hs ⊢
  split at hs
  · rename_i hword
    have hpre := List.isPrefixOf_iff_prefix.mp hword
    rw [if_pos hword, if_pos (List.isPrefixOf_iff_prefix.mpr (hpre.trans (List.prefix_append s t))),
      List.drop_append_of_le_length hpre.length_le]
    rfl
  · exact absurd rfl hs

/-! ## Numbers -/

theorem span_append {s t : List Char} (h : (s.span isJsonDigit).2 ≠ [] ∨ Stops t) :
    (s ++ t).span isJsonDigit = ((s.span isJsonDigit).1, (s.span isJsonDigit).2 ++ t) := by
  simp only [List.span_eq_takeWhile_dropWhile] at h ⊢
  induction s with
  | nil =>
    cases t with
    | nil => rfl
    | cons c t =>
      rcases h with h | h
      · exact absurd rfl h
      · have hc := (h c rfl).1
        simp [hc]
  | cons d s ih =>
    cases hd : isJsonDigit d with
    | true =>
      rw [List.dropWhile_cons_of_pos hd] at h
      obtain ⟨hfst, hsnd⟩ := Prod.mk.inj (ih h)
      simp only [List.cons_append, List.takeWhile_cons_of_pos hd, List.dropWhile_cons_of_pos hd,
        hfst, hsnd]
    | false => simp [hd]

theorem scanDigits_append {s digits r : List Char} (h : scanDigits s = some (digits, r))
    {t : List Char} (ht : r ≠ [] ∨ Stops t) : scanDigits (s ++ t) = some (digits, r ++ t) := by
  unfold scanDigits at h
  split at h
  · obtain ⟨rfl, rfl⟩ := Prod.mk.inj (Option.some.inj h)
    rfl
  · rename_i c s hzero
    split at h
    · rename_i hc
      obtain ⟨rfl, rfl⟩ := Prod.mk.inj (Option.some.inj h)
      rw [List.cons_append, scanDigits.eq_2 _ _ hzero, if_pos hc, span_append ht]
    · cases h
  · cases h

theorem scanFraction_append {s t : List Char} (hdot : (scanFraction s).2.head? ≠ some '.')
    (ht : (scanFraction s).2 ≠ [] ∨ Stops t) :
    scanFraction (s ++ t) = ((scanFraction s).1, (scanFraction s).2 ++ t) := by
  unfold scanFraction at hdot ht ⊢
  split at hdot
  · rename_i s
    rw [List.cons_append]
    simp only at ht ⊢
    split at hdot
    · exact absurd rfl hdot
    · rename_i digits rest hdigits hspan
      simp only [hspan] at ht
      rw [span_append (by rw [hspan]; exact ht), hspan]
      cases digits with
      | nil => exact absurd rfl hdigits
      | cons d digits => rfl
  · rename_i hs
    cases s with
    | nil =>
      have hstop : Stops t := ht.resolve_left fun h => h rfl
      cases t with
      | nil => rfl
      | cons c t =>
        have hc := (hstop c rfl).2.1
        split
        · rename_i heq
          exact absurd (List.cons.inj heq).1 hc
        · rfl
    | cons c s =>
      split
      · rename_i heq
        obtain ⟨rfl, -⟩ := List.cons.inj heq
        exact absurd rfl (hs s)
      · rfl

theorem scanSign_append {s : List Char} (hs : s ≠ []) (t : List Char) :
    scanSign (s ++ t) = ((scanSign s).1, (scanSign s).2 ++ t) := by
  cases s with
  | nil => exact absurd rfl hs
  | cons c s =>
    by_cases hplus : c = '+'
    · subst hplus
      rfl
    by_cases hminus : c = '-'
    · subst hminus
      rfl
    rw [List.cons_append, scanSign.eq_3 _ (by simp [hplus]) (by simp [hminus]),
      scanSign.eq_3 _ (by simp [hplus]) (by simp [hminus])]
    rfl

theorem scanExponent_append {s t : List Char}
    (he : ∀ c ∈ (scanExponent s).2.head?, c ≠ 'e' ∧ c ≠ 'E')
    (ht : (scanExponent s).2 ≠ [] ∨ Stops t) :
    scanExponent (s ++ t) = ((scanExponent s).1, (scanExponent s).2 ++ t) := by
  cases s with
  | nil =>
    have hstop : Stops t := ht.resolve_left fun h => h rfl
    cases t with
    | nil => rfl
    | cons c t =>
      obtain ⟨-, -, hc, hC⟩ := hstop c rfl
      simp [scanExponent, hc, hC]
  | cons c s =>
    simp only [scanExponent, List.cons_append] at he ht ⊢
    by_cases hc : (c = 'e' || c = 'E') = true
    · simp only [hc, if_true] at he ht ⊢
      have hs : s ≠ [] := by
        rintro rfl
        simp [scanSign] at he hc
        rcases hc with rfl | rfl
        · exact he.1 rfl
        · exact he.2 rfl
      cases hspan : (scanSign s).2.span isJsonDigit with
      | mk digits rest =>
        cases digits with
        | nil =>
          simp only [hspan] at he
          have hne := he c rfl
          simp [hne.1, hne.2] at hc
        | cons d digits =>
          simp only [hspan] at ht
          rw [scanSign_append hs t]
          simp only
          rw [span_append (by rw [hspan]; exact ht), hspan]
    · simp only [Bool.not_eq_true] at hc
      simp only [hc, Bool.false_eq_true, if_false]
      rfl

theorem scanNumber_append {limits : ScanLimits} {negative : Bool} {s t r : List Char}
    {value : JsonTree} (h : scanNumber limits negative s = .ok (value, r)) (hr : Stops r)
    (ht : Stops (r ++ t)) : scanNumber limits negative (s ++ t) = .ok (value, r ++ t) := by
  have hstop : r ≠ [] ∨ Stops t := by
    by_cases hne : r = []
    · subst hne
      exact .inr ht
    · exact .inl hne
  unfold scanNumber at h ⊢
  cases hdigits : scanDigits s with
  | none => simp [hdigits] at h
  | some u =>
    obtain ⟨digits, s₁⟩ := u
    rw [hdigits] at h
    simp only at h
    have hrest : (scanExponent (scanFraction s₁).2).2 = r := by
      split at h
      · split at h
        · cases h
        · exact (Prod.mk.inj (Except.ok.inj h)).2
      · exact (Prod.mk.inj (Except.ok.inj h)).2
    have hexp : scanExponent ((scanFraction s₁).2 ++ t) =
        ((scanExponent (scanFraction s₁).2).1, r ++ t) := by
      rw [scanExponent_append, hrest]
      · rw [hrest]
        exact fun c hc => (hr c hc).2.2
      · rwa [hrest]
    have hkept : (scanFraction s₁).2 ≠ [] ∨ Stops t := by
      refine hstop.imp_left fun hne hnil => hne ?_
      rw [← hrest, hnil]
      rfl
    have hdot : (scanFraction s₁).2.head? ≠ some '.' := by
      intro hhead
      obtain ⟨u, hu⟩ : ∃ u, (scanFraction s₁).2 = '.' :: u := by
        cases hs₁ : (scanFraction s₁).2 with
        | nil => simp [hs₁] at hhead
        | cons c u =>
          rw [hs₁] at hhead
          obtain rfl := Option.some.inj hhead
          exact ⟨u, rfl⟩
      rw [hu] at hrest
      have : r = '.' :: u := by simpa [scanExponent] using hrest.symm
      exact (hr '.' (by rw [this]; rfl)).2.1 rfl
    have hfrac := scanFraction_append hdot hkept
    have hs₁ : s₁ ≠ [] ∨ Stops t := by
      refine hkept.imp_left fun hne hnil => hne ?_
      rw [hnil]
      rfl
    rw [scanDigits_append hdigits hs₁]
    simp only [hfrac, hexp]
    split at h
    · rename_i hplain
      rw [if_pos hplain]
      split at h
      · cases h
      · rename_i hlen
        rw [if_neg hlen, (Prod.mk.inj (Except.ok.inj h)).1]
    · rename_i hplain
      rw [if_neg hplain, (Prod.mk.inj (Except.ok.inj h)).1]

theorem scanNumber_error {limits : ScanLimits} {negative : Bool} {s : List Char} {e : ScanError}
    (h : scanNumber limits negative s = .error e) : e = .invalid := by
  unfold scanNumber at h
  split at h
  · exact (Except.error.inj h).symm
  · simp only at h
    split at h
    · split at h
      · exact (Except.error.inj h).symm
      · cases h
    · cases h

/-! ## Arrays, objects and values -/

/-- A scan and what is done with its result: that the next step is taken says that
what the scan left stops a number. -/
theorem bind_append {α β : Type} {scan : List Char → Except ScanError (α × List Char)}
    {next : α × List Char → Except ScanError (β × List Char)} {s t : List Char}
    (hscan : Extends scan)
    (hnext : ∀ a r, next (a, r) ≠ .error .invalid → (Stops r ∧ Stops (r ++ t)) ∧
      next (a, r ++ t) = (next (a, r)).map fun x => (x.1, x.2 ++ t))
    (hs : (scan s >>= next) ≠ .error .invalid) :
    (scan (s ++ t) >>= next) = (scan s >>= next).map fun x => (x.1, x.2 ++ t) := by
  cases hr : scan s with
  | error e =>
    have hne : scan s ≠ .error .invalid := by
      rintro h
      rw [h] at hs
      exact hs rfl
    rw [hscan s t (fun a r h => by rw [hr] at h; cases h) hne, hr]
    rfl
  | ok r =>
    obtain ⟨a, r⟩ := r
    rw [hr] at hs
    obtain ⟨hstops, happend⟩ := hnext a r hs
    rw [hscan s t (fun a' r' h => by
      rw [hr] at h
      obtain ⟨-, rfl⟩ := Prod.mk.inj (Except.ok.inj h)
      exact hstops) (by rw [hr]; nofun), hr]
    exact happend

theorem map_bind_pure {α β : Type} (x : Except ScanError (α × List Char)) (f : α → β)
    (t : List Char) :
    ((x.map fun y => (y.1, y.2 ++ t)) >>= fun y => pure (f y.1, y.2)) =
      (x >>= fun y => pure (f y.1, y.2)).map fun y => (y.1, y.2 ++ t) := by
  cases x <;> rfl

section Containers
variable {scan : List Char → Except ScanError (JsonTree × List Char)}
  (hnil : scan [] = .error .invalid) (hscan : Extends scan)

omit hscan in
include hnil in
theorem scanItems_nil (n : Nat) : scanItems scan n [] = .error .invalid := by
  cases n with
  | zero => rfl
  | succ n =>
    rw [scanItems, hnil]
    rfl

omit hnil hscan in
theorem scanEntries_nil (n : Nat) : scanEntries scan n [] = .error .invalid := by
  cases n <;> rfl

include hnil hscan

theorem scanItems_append (n : Nat) (s t : List Char) (hs : scanItems scan n s ≠ .error .invalid) :
    scanItems scan n (s ++ t) = (scanItems scan n s).map fun x => (x.1, x.2 ++ t) := by
  induction n generalizing s with
  | zero => exact absurd rfl hs
  | succ n ih =>
    rw [scanItems, scanItems]
    refine bind_append hscan (fun item r hne => ?_) hs
    simp only at hne ⊢
    split at hne
    · rename_i u heq
      refine ⟨stops_of_skipSpace heq (by decide) t, ?_⟩
      rw [skipSpace_append heq]
      rfl
    · rename_i u heq
      refine ⟨stops_of_skipSpace heq (by decide) t, ?_⟩
      rw [skipSpace_append heq, List.cons_append]
      have hitems : scanItems scan n (skipSpace u) ≠ .error .invalid := by
        intro h
        rw [h] at hne
        exact hne rfl
      simp only
      rw [skipSpace_append_of_scan (scanItems_nil hnil n) hitems, ih _ hitems]
      exact map_bind_pure _ _ t
    · exact absurd rfl hne

theorem scanEntries_append (n : Nat) (s t : List Char)
    (hs : scanEntries scan n s ≠ .error .invalid) :
    scanEntries scan n (s ++ t) = (scanEntries scan n s).map fun x => (x.1, x.2 ++ t) := by
  induction n generalizing s with
  | zero => exact absurd rfl hs
  | succ n ih =>
    unfold scanEntries at hs ⊢
    split at hs
    · rename_i s
      rw [List.cons_append]
      have htext : Extends scanText := fun s t _ hne => scanText_append s t hne
      refine bind_append htext (fun key r hne => ?_) hs
      simp only at hne ⊢
      split at hne
      · rename_i u heq
        refine ⟨stops_of_skipSpace heq (by decide) t, ?_⟩
        rw [skipSpace_append heq, List.cons_append]
        simp only
        have hvalue : scan (skipSpace u) ≠ .error .invalid := by
          intro h
          rw [h] at hne
          exact hne rfl
        rw [skipSpace_append_of_scan hnil hvalue]
        refine bind_append hscan (fun value r hne => ?_) hne
        simp only at hne ⊢
        split at hne
        · rename_i v heq
          refine ⟨stops_of_skipSpace heq (by decide) t, ?_⟩
          rw [skipSpace_append heq]
          rfl
        · rename_i v heq
          refine ⟨stops_of_skipSpace heq (by decide) t, ?_⟩
          rw [skipSpace_append heq, List.cons_append]
          have hentries : scanEntries scan n (skipSpace v) ≠ .error .invalid := by
            intro h
            rw [h] at hne
            exact hne rfl
          simp only
          rw [skipSpace_append_of_scan (scanEntries_nil n) hentries, ih _ hentries]
          exact map_bind_pure _ _ t
        · exact absurd rfl hne
      · exact absurd rfl hne
    · exact absurd rfl hs

variable (hshrinks : Shrinks scan)
include hshrinks

theorem scanArray_append (s t : List Char) (hs : scanArray scan s ≠ .error .invalid) :
    scanArray scan (s ++ t) = (scanArray scan s).map fun x => (x.1, x.2 ++ t) := by
  unfold scanArray at hs ⊢
  split at hs
  · rename_i u heq
    rw [skipSpace_append heq]
    rfl
  · rename_i hclose
    have hitems : scanItems scan ((skipSpace s).length + 1) (skipSpace s) ≠ .error .invalid := by
      intro h
      rw [h] at hs
      exact hs rfl
    have hlonger : scanItems scan ((skipSpace s).length + 1) (skipSpace s) =
        scanItems scan ((skipSpace s ++ t).length + 1) (skipSpace s) :=
      scanItems_congr hshrinks (by omega) (by rw [List.length_append]; omega)
    rw [skipSpace_append_of_scan (scanItems_nil hnil _) hitems]
    split
    · rename_i u heq
      cases hspace : skipSpace s with
      | nil =>
        rw [hspace, scanItems_nil hnil] at hitems
        exact absurd rfl hitems
      | cons c v =>
        rw [hspace] at heq
        obtain ⟨rfl, -⟩ := List.cons.inj heq
        exact absurd hspace (hclose v)
    · rw [hlonger, scanItems_append hnil hscan _ _ t (hlonger ▸ hitems)]
      exact map_bind_pure _ _ t

theorem scanObject_append (s t : List Char) (hs : scanObject scan s ≠ .error .invalid) :
    scanObject scan (s ++ t) = (scanObject scan s).map fun x => (x.1, x.2 ++ t) := by
  unfold scanObject at hs ⊢
  split at hs
  · rename_i u heq
    rw [skipSpace_append heq]
    rfl
  · rename_i hclose
    have hentries : scanEntries scan ((skipSpace s).length + 1) (skipSpace s) ≠ .error .invalid := by
      intro h
      rw [h] at hs
      exact hs rfl
    have hlonger : scanEntries scan ((skipSpace s).length + 1) (skipSpace s) =
        scanEntries scan ((skipSpace s ++ t).length + 1) (skipSpace s) :=
      scanEntries_congr hshrinks (by omega) (by rw [List.length_append]; omega)
    rw [skipSpace_append_of_scan (scanEntries_nil _) hentries]
    split
    · rename_i u heq
      cases hspace : skipSpace s with
      | nil =>
        rw [hspace] at hentries
        exact absurd rfl hentries
      | cons c v =>
        rw [hspace] at heq
        obtain ⟨rfl, -⟩ := List.cons.inj heq
        exact absurd hspace (hclose v)
    · rw [hlonger, scanEntries_append hnil hscan _ _ t (hlonger ▸ hentries)]
      exact map_bind_pure _
        (fun entries : List (List Nat × JsonTree) => JsonTree.obj (entries.foldl (fun d entry => setEntry d entry.1 entry.2) [])) t

end Containers

section Values
variable {limits : ScanLimits}

theorem scanValue_nil (depth : Nat) : scanValue limits depth [] = .error .invalid := by
  cases depth <;> rfl

theorem scanValue_shrinks (depth : Nat) : Shrinks (scanValue limits depth) :=
  fun _ _ _ h => (scanValue_spec h).1

theorem scanValue_extends (depth : Nat) : Extends (scanValue limits depth) := by
  induction depth using Nat.strongRecOn with
  | ind depth ih =>
    intro s t hstop hs
    cases s with
    | nil => exact absurd (scanValue_nil depth) hs
    | cons c s =>
      have hnumber : ∀ {negative s}, scanNumber limits negative s ≠ .error .invalid →
          (∀ a r, scanNumber limits negative s = .ok (a, r) → Stops r ∧ Stops (r ++ t)) →
          scanNumber limits negative (s ++ t) =
            (scanNumber limits negative s).map fun x => (x.1, x.2 ++ t) := by
        intro negative s hne hstop
        cases hr : scanNumber limits negative s with
        | error e => exact absurd (scanNumber_error hr ▸ hr) hne
        | ok r =>
          obtain ⟨hr', ht⟩ := hstop r.1 r.2 hr
          exact scanNumber_append hr hr' ht
      have hplain : ∀ {u}, c ∉ ['"', '{', '[', 'n', 't', 'f', 'N', 'I', '-'] →
          scanValue limits depth (c :: u) = scanNumber limits false (c :: u) := by
        intro u hc
        unfold scanValue
        split <;> first | rfl | exact absurd (by decide) hc
      by_cases hc : c ∈ ['"', '{', '[', 'n', 't', 'f', 'N', 'I', '-']
      swap
      · rw [List.cons_append, hplain hc, hplain hc]
        rw [hplain hc] at hs hstop
        exact hnumber hs hstop
      rw [List.cons_append]
      unfold scanValue at hstop hs ⊢
      split at hs
      · have htext : scanText s ≠ .error .invalid := by
          intro h
          rw [h] at hs
          exact hs rfl
        rw [scanText_append s t htext]
        cases scanText s <;> rfl
      · split at hs
        · rfl
        · rename_i depth
          exact scanObject_append (scanValue_nil depth) (ih depth (Nat.lt_succ_self depth))
            (scanValue_shrinks depth) s t hs
      · split at hs
        · rfl
        · rename_i depth
          exact scanArray_append (scanValue_nil depth) (ih depth (Nat.lt_succ_self depth))
            (scanValue_shrinks depth) s t hs
      · exact scanWord_append t hs
      · exact scanWord_append t hs
      · exact scanWord_append t hs
      · exact scanWord_append t hs
      · exact scanWord_append t hs
      · simp only at hstop ⊢
        split at hs
        · rename_i hword
          have hpre := List.isPrefixOf_iff_prefix.mp hword
          rw [if_pos hword, if_pos (List.isPrefixOf_iff_prefix.mpr
            (hpre.trans (List.prefix_append s t)))]
          rw [List.drop_append_of_le_length (show "Infinity".length ≤ s.length from hpre.length_le)]
          rfl
        · rename_i hword
          rw [if_neg hword] at hstop ⊢
          -- a number has a digit, so no more of "Infinity" is to come
          have hlonger : "Infinity".toList.isPrefixOf (s ++ t) ≠ true := by
            cases s with
            | nil => exact absurd rfl hs
            | cons d s =>
              have hd : d ≠ 'I' := by
                rintro rfl
                exact hs rfl
              simp [Ne.symm hd]
          rw [if_neg hlonger]
          exact hnumber hs hstop
      · simp only [List.mem_cons, List.not_mem_nil, or_false] at hc
        rcases hc with h | h | h | h | h | h | h | h | h <;> contradiction

/-! ## A line that was cut short -/

theorem scanValue_brace (depth : Nat) (s : List Char) :
    scanValue limits depth ('{' :: s) = match depth with
      | 0 => .error .tooDeep
      | depth + 1 => scanObject (scanValue limits depth) s := by
  cases depth <;> rfl

theorem rawDecode_object_append {s : List Char} (t : List Char)
    (hs : rawDecode limits ('{' :: s) ≠ .error .invalid) :
    rawDecode limits ('{' :: s ++ t) = (rawDecode limits ('{' :: s)).map fun x => (x.1, x.2 ++ t) := by
  unfold rawDecode at hs ⊢
  rw [List.cons_append, scanValue_brace, scanValue_brace]
  rw [scanValue_brace] at hs
  cases hdepth : limits.depth with
  | zero => rfl
  | succ depth =>
    rw [hdepth] at hs
    exact scanObject_append (scanValue_nil depth) (scanValue_extends depth)
      (scanValue_shrinks depth) s t hs

/-- **An object that is cut short is no JSON text.** -/
theorem loads_of_prefix {value : JsonTree} {s p q : List Char}
    (h : rawDecode limits ('{' :: s) = .ok (value, [])) (hs : '{' :: s = p ++ q) (hq : q ≠ []) :
    jsonLoads limits p = .error .invalid := by
  cases p with
  | nil =>
    rw [jsonLoads, if_neg (by decide), rawDecode, skipSpace, List.dropWhile_nil, scanValue_nil]
    rfl
  | cons c p =>
    obtain ⟨rfl, hrest⟩ := List.cons.inj hs
    have hsame : s = p ++ q := hrest
    rw [jsonLoads, if_neg (by simp), skipSpace, List.dropWhile_cons_of_neg (by decide)]
    by_cases hp : rawDecode limits ('{' :: p) = .error .invalid
    · rw [hp]
      rfl
    · -- the whole text would be read the same way, with `q` left over
      have hwhole := rawDecode_object_append q hp
      rw [List.cons_append, ← hsame, h] at hwhole
      cases hp' : rawDecode limits ('{' :: p) with
      | error e =>
        rw [hp'] at hwhole
        cases hwhole
      | ok r =>
        rw [hp'] at hwhole
        have hrest : [] = r.2 ++ q := (Prod.mk.inj (Except.ok.inj hwhole)).2
        exact absurd (List.append_eq_nil_iff.mp hrest.symm).2 hq

end Values

end HamZaboon.Library
