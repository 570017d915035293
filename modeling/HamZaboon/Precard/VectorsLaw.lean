import HamZaboon.Precard.RowVectors
import HamZaboon.Precard.TopicVectors

/-! # What a batch of vectors promises

All vectors of a batch come from one reply that covers it, or all from the fallback, or the batch
ends with one of four errors, unless a reply is met whose rows cannot be put under their lemmas:
then a `TypeError` leaves the batch (`vectors_all_or_fallback_iff`).

Which replies are met does not depend on what they say until one of them is taken or raises.  So
the walk that passes over every reply (`passOver`) has the attempts of any other walk at its
beginning, up to the first reply that the other one does not pass over (`WalkFacts`).
-/

namespace HamZaboon
open Library

/-! ## The loops -/

/-- The attempt ended in quota exhaustion: it met quota failures, and nothing else. -/
def VectorsAttempt.Exhausted (lib : StrLib) (a : VectorsAttempt) : Prop :=
  a.result.kind = .rateLimited ∧ a.answers ≠ [] ∧ ∀ answer ∈ a.answers, a.step.refuses lib answer = true

def passOver (_ _ : String) : VectorsReading := .passed

/-- The attempt got no reply, or one that is passed over. -/
def VectorsAttempt.Passed (read : String → String → VectorsReading) (a : VectorsAttempt) : Prop :=
  ∀ raw, a.result = .text raw → read a.model raw = .passed

/-- The attempt met a reply that ends the batch. -/
structure VectorsAttempt.Decides (read : String → String → VectorsReading) (a : VectorsAttempt)
    (raw : String) (r : VectorsEnd) : Prop where
  result : a.result = .text raw
  met : ∃ pair, .reply raw pair ∈ a.answers
  reading : (read a.model raw).ending = some r

/-- While the quota flag is set, nothing but quota failures was met. -/
def Unspent (lib : StrLib) (s : VectorsState) : Prop :=
  s.limitedAll = true → ∀ a ∈ s.log, a.Exhausted lib

section Loops
variable {call : VectorsCall} {read : String → String → VectorsReading} {s s' : VectorsState}

/-- What an attempt does, and what it does where every reply is passed over. -/
inductive TryFacts (call : VectorsCall) (read : String → String → VectorsReading)
    (s : VectorsState) : VectorsState × VectorsAttemptEnd → VectorsState × VectorsAttemptEnd → Prop
  | retry (s' : VectorsState) (a : VectorsAttempt) : s'.log = s.log ++ [a] → a.Passed read →
      s'.limitedAll = false → TryFacts call read s (s', .retry) (s', .retry)
  | limited (s' : VectorsState) (a : VectorsAttempt) : s'.log = s.log ++ [a] → a.Passed read →
      s'.limitedAll = s.limitedAll → a.Exhausted call.legLib →
      TryFacts call read s (s', .limited) (s', .limited)
  | cooled (s' : VectorsState) (a : VectorsAttempt) (e : TerminalKind) : s'.log = s.log ++ [a] →
      a.Passed read → e ≠ .rateLimited → TryFacts call read s (s', .cooled e) (s', .cooled e)
  | auth (s' : VectorsState) (a : VectorsAttempt) : s'.log = s.log ++ [a] → a.Passed read →
      TryFacts call read s (s', .ended (.raised .auth)) (s', .ended (.raised .auth))
  | decided (s' d : VectorsState) (a : VectorsAttempt) (raw : String) (r : VectorsEnd) :
      s'.log = s.log ++ [a] → d.log = s.log ++ [a] → a.Decides read raw r →
      TryFacts call read s (s', .ended r) (d, .retry)

/-- What the loops do, and what they do where every reply is passed over. -/
inductive WalkFacts (call : VectorsCall) (read : String → String → VectorsReading)
    (s : VectorsState) : VectorsState × VectorsLoopEnd → VectorsState × VectorsLoopEnd → Prop
  | on (s' : VectorsState) (new : List VectorsAttempt) : s'.log = s.log ++ new →
      (∀ a ∈ new, a.Passed read) → (Unspent call.legLib s → Unspent call.legLib s') →
      WalkFacts call read s (s', .on) (s', .on)
  | cooled (s' : VectorsState) (new : List VectorsAttempt) (e : TerminalKind) :
      s'.log = s.log ++ new → (∀ a ∈ new, a.Passed read) → e ≠ .rateLimited →
      WalkFacts call read s (s', .cooled e) (s', .cooled e)
  | auth (s' : VectorsState) (new : List VectorsAttempt) : s'.log = s.log ++ new →
      (∀ a ∈ new, a.Passed read) →
      WalkFacts call read s (s', .ended (.raised .auth)) (s', .ended (.raised .auth))
  | decided (s' : VectorsState) (d : VectorsState × VectorsLoopEnd) (pre post : List VectorsAttempt)
      (a : VectorsAttempt) (raw : String) (r : VectorsEnd) : s'.log = s.log ++ (pre ++ [a]) →
      d.1.log = s.log ++ (pre ++ a :: post) → (∀ b ∈ pre, b.Passed read) → a.Decides read raw r →
      WalkFacts call read s (s', .ended r) d

namespace WalkFacts
variable {r d : VectorsState × VectorsLoopEnd}

theorem after {new : List VectorsAttempt} (h : WalkFacts call read s' r d)
    (hlog : s'.log = s.log ++ new) (hpassed : ∀ a ∈ new, a.Passed read)
    (hunspent : Unspent call.legLib s → Unspent call.legLib s') : WalkFacts call read s r d := by
  have hall : ∀ {later : List VectorsAttempt}, (∀ a ∈ later, a.Passed read) →
      ∀ a ∈ new ++ later, a.Passed read := fun hlater a ha =>
    (List.mem_append.mp ha).elim (hpassed a) (hlater a)
  cases h with
  | on s'' later hlog' hpassed' hunspent' =>
    exact .on s'' (new ++ later) (by rw [hlog', hlog, List.append_assoc]) (hall hpassed')
      (hunspent' ∘ hunspent)
  | cooled s'' later e hlog' hpassed' he =>
    exact .cooled s'' (new ++ later) e (by rw [hlog', hlog, List.append_assoc]) (hall hpassed') he
  | auth s'' later hlog' hpassed' =>
    exact .auth s'' (new ++ later) (by rw [hlog', hlog, List.append_assoc]) (hall hpassed')
  | decided s'' d pre post a raw e hlog' hdry hpassed' hdecides =>
    exact .decided s'' d (new ++ pre) post a raw e (by rw [hlog', hlog]; simp) (by rw [hdry, hlog]; simp)
      (hall hpassed') hdecides

theorem log (h : WalkFacts call read s r d) :
    (∃ new, r.1.log = s.log ++ new) ∧ ∃ new, d.1.log = s.log ++ new := by
  cases h with
  | on _ new hlog => exact ⟨⟨new, hlog⟩, new, hlog⟩
  | cooled _ new _ hlog => exact ⟨⟨new, hlog⟩, new, hlog⟩
  | auth _ new hlog => exact ⟨⟨new, hlog⟩, new, hlog⟩
  | decided _ _ pre post a _ _ hlog hdry => exact ⟨⟨pre ++ [a], hlog⟩, pre ++ a :: post, hdry⟩

end WalkFacts

variable (call) (script : Nat → Answer) (step : LegStep) (model : String)

/-- **One attempt.** -/
theorem attempt_facts (retry : Bool) (read : String → String → VectorsReading) (s : VectorsState) :
    TryFacts call read s (call.attempt script read step model retry s)
      (call.attempt script passOver step model retry s) := by
  unfold VectorsCall.attempt
  obtain ⟨o, ho⟩ : ∃ o, step.callLeg call.legLib (s.rings step.provider)
      (fun k => script (s.calls + k)) = o := ⟨_, rfl⟩
  have hreply : ∀ raw, o.result = .text raw → ∃ pair, .reply raw pair ∈ o.tried.map (·.2) :=
    fun _ => ho ▸ step.reply_of_callLeg
  have hrefused : o.result.kind = .rateLimited → o.tried ≠ [] ∧
      ∀ a ∈ o.tried.map (·.2), step.refuses call.legLib a = true := ho ▸ step.refused_of_callLeg
  rw [ho]
  obtain ⟨a, ha⟩ : ∃ a : VectorsAttempt, ⟨step, model, retry, o.tried.map (·.2), o.result⟩ = a :=
    ⟨_, rfl⟩
  have htext : a.result = o.result := by rw [← ha]
  have hunread : (∀ raw, o.result ≠ .text raw) → a.Passed read := fun hnot raw hraw =>
    absurd (htext.symm.trans hraw) (hnot raw)
  have hexhausted : o.result.kind = .rateLimited → a.Exhausted call.legLib := fun hkind => by
    rw [← ha]
    exact ⟨hkind, by simpa using (hrefused hkind).1, (hrefused hkind).2⟩
  simp only [ha]
  cases hresult : o.result with
  | text raw =>
    rw [hresult] at htext
    have hmodel : a.model = model := by rw [← ha]
    dsimp only
    cases hread : (read model raw).ending with
    | none =>
      refine .retry _ a rfl (fun raw' hraw' => ?_) rfl
      obtain rfl := CallResult.text.inj (htext.symm.trans hraw')
      rw [hmodel]
      cases hreading : read model raw <;> rw [hreading] at hread <;> first | rfl | cases hread
    | some r =>
      refine .decided _ _ a raw r rfl rfl ⟨htext, ?_, hmodel ▸ hread⟩
      rw [← ha]
      exact hreply raw hresult
  | exhausted =>
    rw [hresult] at hunread hexhausted
    dsimp only
    split
    · exact .retry _ a rfl (hunread nofun) rfl
    · exact .limited _ a rfl (hunread nofun) rfl (hexhausted rfl)
  | rateLimited =>
    rw [hresult] at hunread hexhausted
    exact .limited _ a rfl (hunread nofun) rfl (hexhausted rfl)
  | providerCooldown => exact .cooled _ a _ rfl (hunread (by simp [hresult])) nofun
  | locationBlocked => exact .cooled _ a _ rfl (hunread (by simp [hresult])) nofun
  | authError => exact .auth _ a rfl (hunread (by simp [hresult]))
  | failed => exact .retry _ a rfl (hunread (by simp [hresult])) rfl

/-- **The attempts on a model.** -/
theorem attempts_facts (ns : List Nat) (read : String → String → VectorsReading) (s : VectorsState) :
    WalkFacts call read s (call.attempts script read step model ns s)
      (call.attempts script passOver step model ns s) := by
  induction ns generalizing read s with
  | nil => exact .on s [] (List.append_nil _).symm nofun id
  | cons n rest ih =>
    have hfacts := attempt_facts call script step model (n ≠ 0) read s
    unfold VectorsCall.attempts
    generalize call.attempt script read step model (n ≠ 0) s = r at hfacts
    generalize call.attempt script passOver step model (n ≠ 0) s = d at hfacts
    cases hfacts with
    | retry s' a hlog hpassed hflag =>
      refine (ih read s').after hlog (List.forall_mem_singleton.mpr hpassed) fun _ hset => ?_
      rw [hflag] at hset
      cases hset
    | limited s' a hlog hpassed hflag hexhausted =>
      refine .on s' [a] hlog (List.forall_mem_singleton.mpr hpassed) fun hunspent hset => ?_
      rw [hlog]
      exact List.forall_mem_append.mpr
        ⟨hunspent (hflag ▸ hset), List.forall_mem_singleton.mpr hexhausted⟩
    | cooled s' a e hlog hpassed he =>
      exact .cooled s' [a] e hlog (List.forall_mem_singleton.mpr hpassed) he
    | auth s' a hlog hpassed => exact .auth s' [a] hlog (List.forall_mem_singleton.mpr hpassed)
    | decided s' d a raw r hlog hdry hdecides =>
      -- the other walk makes the attempts that are left
      obtain ⟨-, later, hlater⟩ := (ih passOver d).log
      exact .decided s' _ [] later a raw r hlog (by rw [hlater, hdry, List.append_assoc]; rfl) nofun
        hdecides

theorem log_attempts_ne_nil {ns : List Nat} (hns : ns ≠ []) (read : String → String → VectorsReading)
    (s : VectorsState) : (call.attempts script read step model ns s).1.log ≠ [] := by
  obtain ⟨n, rest, rfl⟩ := List.exists_cons_of_ne_nil hns
  have hfacts := attempt_facts call script step model (n ≠ 0) read s
  unfold VectorsCall.attempts
  generalize call.attempt script read step model (n ≠ 0) s = r at hfacts
  generalize call.attempt script passOver step model (n ≠ 0) s = d at hfacts
  have hlast : ∀ {s' : VectorsState} {a : VectorsAttempt}, s'.log = s.log ++ [a] → s'.log ≠ [] :=
    fun hlog hnil => by simp [hlog] at hnil
  cases hfacts with
  | retry s' a hlog =>
    obtain ⟨⟨later, hlater⟩, -⟩ := (attempts_facts call script step model rest read s').log
    exact hlater ▸ List.append_ne_nil_of_left_ne_nil (hlast hlog) later
  | limited s' a hlog => exact hlast hlog
  | cooled s' a e hlog => exact hlast hlog
  | auth s' a hlog => exact hlast hlog
  | decided s' d a raw r hlog => exact hlast hlog

/-- **The models of a provider.** -/
theorem modelLoop_facts (models : List String) (read : String → String → VectorsReading)
    (s : VectorsState) : WalkFacts call read s (call.modelLoop script read step models s)
      (call.modelLoop script passOver step models s) := by
  induction models generalizing read s with
  | nil => exact .on s [] (List.append_nil _).symm nofun id
  | cons model models ih =>
    have hfacts := attempts_facts call script step model (List.range maxAttempts) read
      { s with nTried := s.nTried + 1 }
    unfold VectorsCall.modelLoop
    generalize call.attempts script read step model (List.range maxAttempts)
      { s with nTried := s.nTried + 1 } = r at hfacts
    generalize call.attempts script passOver step model (List.range maxAttempts)
      { s with nTried := s.nTried + 1 } = d at hfacts
    cases hfacts with
    | on s' new hlog hpassed hunspent => exact (ih read s').after hlog hpassed hunspent
    | cooled s' new e hlog hpassed he => exact .cooled s' new e hlog hpassed he
    | auth s' new hlog hpassed => exact .auth s' new hlog hpassed
    | decided s' d pre post a raw r hlog hdry hpassed hdecides =>
      obtain ⟨d, ended⟩ := d
      cases ended with
      | on =>
        obtain ⟨-, later, hlater⟩ := (ih passOver d).log
        exact .decided s' _ pre (post ++ later) a raw r hlog
          (by rw [hlater, hdry]; simp) hpassed hdecides
      | cooled e => exact .decided s' _ pre post a raw r hlog hdry hpassed hdecides
      | ended e => exact .decided s' _ pre post a raw r hlog hdry hpassed hdecides

theorem log_modelLoop_ne_nil (models : List String) {s : VectorsState} (h : s.nTried ≠ 0 → s.log ≠ [])
    (htried : (call.modelLoop script read step models s).1.nTried ≠ 0) :
    (call.modelLoop script read step models s).1.log ≠ [] := by
  induction models generalizing s with
  | nil => exact h htried
  | cons model models ih =>
    have hlog := log_attempts_ne_nil call script step model
      (by decide : List.range maxAttempts ≠ []) read { s with nTried := s.nTried + 1 }
    unfold VectorsCall.modelLoop at htried ⊢
    generalize call.attempts script read step model (List.range maxAttempts)
      { s with nTried := s.nTried + 1 } = r at hlog htried
    obtain ⟨s', ended⟩ := r
    cases ended with
    | on => exact ih (fun _ => hlog) htried
    | cooled e => exact hlog
    | ended e => exact hlog

theorem providerLoop_walk (read : String → String → VectorsReading) :
    (call.walk = [] ∧ call.providerLoop script read call.walk call.start = (call.start, .on)) ∨
      ∃ step, call.walk = [step] ∧ call.providerLoop script read call.walk call.start =
        call.modelLoop script read step step.models call.start := by
  have hlength : call.walk.length ≤ 1 := by
    rw [VectorsCall.walk]
    cases hwalk : resolveLegWalk call.legLib call.tunneled "topic_vectors" call.provider
        (if call.models = [] then none else some call.models) (call.rings.map (·.map Prod.fst)) with
    | none => exact Nat.zero_le 1
    | some steps => exact length_resolveLegWalk hwalk
  match hwalk : call.walk with
  | [] => exact .inl ⟨rfl, rfl⟩
  | [step] =>
    refine .inr ⟨step, rfl, ?_⟩
    rw [VectorsCall.providerLoop]
    rcases call.modelLoop script read step step.models call.start with ⟨s, ended⟩
    cases ended <;> rfl
  | _ :: _ :: _ =>
    rw [hwalk] at hlength
    simp at hlength

/-- **The walk.** -/
theorem walk_facts (read : String → String → VectorsReading) :
    WalkFacts call read call.start (call.providerLoop script read call.walk call.start)
      (call.providerLoop script passOver call.walk call.start) ∧
    ((call.providerLoop script read call.walk call.start).1.nTried ≠ 0 →
      (call.providerLoop script read call.walk call.start).1.log ≠ []) := by
  rcases providerLoop_walk call script read with ⟨hnil, hloop⟩ | ⟨step, hwalk, hloop⟩ <;>
    rcases providerLoop_walk call script passOver with ⟨hnil', hdry⟩ | ⟨step', hwalk', hdry⟩
  · rw [hloop, hdry]
    exact ⟨.on _ [] (List.append_nil _).symm nofun id, absurd rfl⟩
  · cases hnil.symm.trans hwalk'
  · cases hwalk.symm.trans hnil'
  · obtain rfl : step = step' := List.singleton_inj.mp (hwalk.symm.trans hwalk')
    rw [hloop, hdry]
    exact ⟨modelLoop_facts call script step step.models read _,
      log_modelLoop_ne_nil call script step step.models (absurd rfl)⟩

end Loops

/-! ## The records of a batch -/

theorem addSenses_facts (enDef : String) (senses : List PseudoSense) (picks : List SensePick) :
    (∃ new, addSenses enDef senses picks = senses ++ new ∧ ∀ s ∈ new, s.topicLabel = otherAbstract) ∧
      ((senses.map (·.senseId)).Nodup → ((addSenses enDef senses picks).map (·.senseId)).Nodup) ∧
      ∀ p ∈ picks, p.senseId ≠ "" →
        p.senseId ∈ (addSenses enDef senses picks).map (·.senseId) := by
  induction picks generalizing senses with
  | nil => exact ⟨⟨[], (List.append_nil _).symm, nofun⟩, id, nofun⟩
  | cons p picks ih =>
    rw [addSenses, List.foldl_cons]
    split
    · rename_i hnew
      obtain ⟨⟨new, heq, hlabels⟩, hnodup, hpicked⟩ := ih (senses ++
        [⟨p.senseId, if p.gloss = "" then enDef else p.gloss, otherAbstract⟩])
      rw [addSenses] at heq hnodup hpicked
      refine ⟨⟨_, by rw [heq, List.append_assoc], List.forall_mem_append.mpr
        ⟨List.forall_mem_singleton.mpr rfl, hlabels⟩⟩, fun h => hnodup ?_, fun q hq hid => ?_⟩
      · rw [List.map_append, List.nodup_append]
        refine ⟨h, List.nodup_singleton _, fun a ha b hb => ?_⟩
        obtain ⟨s, hs, rfl⟩ := List.mem_map.mp ha
        obtain rfl := List.mem_singleton.mp hb
        exact of_decide_eq_true (List.all_eq_true.mp hnew.2 s hs)
      · rcases List.mem_cons.mp hq with rfl | hq
        · rw [heq]
          simp
        · exact hpicked q hq hid
    · rename_i hold
      obtain ⟨⟨new, heq, hlabels⟩, hnodup, hpicked⟩ := ih senses
      rw [addSenses] at heq hnodup hpicked
      refine ⟨⟨new, heq, hlabels⟩, hnodup, fun q hq hid => ?_⟩
      rcases List.mem_cons.mp hq with rfl | hq
      · -- its sense is there
        rw [not_and, Bool.not_eq_true, List.all_eq_false] at hold
        obtain ⟨s, hs, hsame⟩ := hold hid
        rw [heq, List.map_append, List.mem_append]
        exact .inl (List.mem_map.mpr ⟨s, hs, by simpa using hsame⟩)
      · exact hpicked q hq hid

/-- A record with senses of its own, which are labelled alike. -/
structure RecordFacts (senses : List PseudoSense) : Prop where
  labels : ∀ s ∈ senses, s.topicLabel = otherAbstract
  nodup : (senses.map (·.senseId)).Nodup

theorem RecordFacts.addSenses {senses : List PseudoSense} (h : RecordFacts senses) (enDef : String)
    (picks : List SensePick) : RecordFacts (addSenses enDef senses picks) := by
  obtain ⟨⟨new, heq, hlabels⟩, hnodup, -⟩ := addSenses_facts enDef senses picks
  refine ⟨?_, hnodup h.nodup⟩
  rw [heq]
  exact List.forall_mem_append.mpr ⟨h.labels, hlabels⟩

section Records
variable {call : VectorsCall}

theorem recordFacts_of_lookup {groups : PseudoRecords} (h : ∀ r ∈ groups, RecordFacts r.2)
    (lemma' : String) : RecordFacts ((groups.lookup lemma').getD []) := by
  cases hlookup : groups.lookup lemma' with
  | none => exact ⟨nofun, List.nodup_nil⟩
  | some senses => exact h _ (mem_of_lookup_eq_some hlookup)

def HasSense (groups : PseudoRecords) (sid : String) : Prop :=
  ∃ lemma' senses, groups.lookup lemma' = some senses ∧ sid ∈ senses.map (·.senseId)

theorem hasSense_addItem {groups : PseudoRecords} {item : SampleItem} {sid : String}
    (h : HasSense groups sid ∨
      sid ≠ "" ∧ ∃ p ∈ call.picks (sourceItemKey item), p.senseId = sid) :
    HasSense (call.addItem groups item) sid := by
  obtain ⟨⟨new, heq, -⟩, -, hpicked⟩ := addSenses_facts (call.enDef (sourceItemKey item))
    ((groups.lookup (call.py.strip item.text)).getD []) (call.picks (sourceItemKey item))
  have hlookup := lookup_setEntry groups (call.py.strip item.text)
    (addSenses (call.enDef (sourceItemKey item)) ((groups.lookup (call.py.strip item.text)).getD [])
      (call.picks (sourceItemKey item)))
  rcases h with ⟨lemma', senses, hsenses, hsid⟩ | ⟨hne, p, hp, rfl⟩
  · by_cases hkey : lemma' = call.py.strip item.text
    · subst hkey
      refine ⟨_, _, (hlookup _).trans (if_pos rfl), ?_⟩
      rw [heq, hsenses, Option.getD_some, List.map_append]
      exact List.mem_append_left _ hsid
    · exact ⟨lemma', senses, ((hlookup lemma').trans (if_neg hkey)).trans hsenses, hsid⟩
  · exact ⟨_, _, (hlookup _).trans (if_pos rfl), hpicked p hp hne⟩

theorem records_facts (batch : List SampleItem) {groups : PseudoRecords}
    (h : ∀ r ∈ groups, RecordFacts r.2) :
    (∀ r ∈ batch.foldl call.addItem groups, RecordFacts r.2) ∧
      (∀ sid, HasSense groups sid → HasSense (batch.foldl call.addItem groups) sid) ∧
      ∀ item ∈ batch, ∀ p ∈ call.picks (sourceItemKey item), p.senseId ≠ "" →
        HasSense (batch.foldl call.addItem groups) p.senseId := by
  induction batch generalizing groups with
  | nil => exact ⟨h, fun _ => id, nofun⟩
  | cons item batch ih =>
    have hnext : ∀ r ∈ call.addItem groups item, RecordFacts r.2 := fun r hr => by
      rcases mem_setEntry hr with hr | rfl
      · exact h r hr
      · exact (recordFacts_of_lookup h _).addSenses _ _
    obtain ⟨hfacts, hkept, hpicked⟩ := ih hnext
    refine ⟨hfacts, fun sid hsid => hkept sid (hasSense_addItem (.inl hsid)), fun item' hitem p hp hne => ?_⟩
    rcases List.mem_cons.mp hitem with rfl | hitem
    · exact hkept _ (hasSense_addItem (.inr ⟨hne, p, hp, rfl⟩))
    · exact hpicked item' hitem p hp hne

theorem records_of_call (call : VectorsCall) :
    (∀ r ∈ call.vectorsPseudoRecords, RecordFacts r.2) ∧
      ∀ item ∈ call.batch, ∀ p ∈ call.picks (sourceItemKey item), p.senseId ≠ "" →
        ∃ r ∈ call.vectorsPseudoRecords, p.senseId ∈ r.2.map (·.senseId) := by
  obtain ⟨hfacts, -, hpicked⟩ := @records_facts call call.batch [] fun r hr =>
    absurd hr List.not_mem_nil
  refine ⟨hfacts, fun item hitem p hp hne => ?_⟩
  obtain ⟨lemma', senses, hlookup, hsid⟩ := hpicked item hitem p hp hne
  exact ⟨_, mem_of_lookup_eq_some hlookup, hsid⟩

end Records

/-! ## Replies that cover a batch -/

/-- The last row of a record has a value for each of its senses, once. -/
structure CoversRecord (lib : VectorsLib) (rows : List Entries) (record : String × List PseudoSense)
    (row : Entries) (vecs : List Entries) : Prop where
  last : lastWithLemma rows record.1 = some row
  vectors : getEntry row "vectors" = .arr (vecs.map .obj)
  once : (record.2.map (·.senseId)).Nodup ∧
    (vecs.map (getEntry · "sense_id")).Perm (record.2.map fun s => textTree s.senseId)
  valid : ∀ v ∈ vecs, (lib.normVector v).isSome = true

/-- The vector of a sense is that of its value in a row. -/
def TakenFrom (lib : VectorsLib) (records : PseudoRecords) (rows : List Entries) (model sid : String)
    (hit : TopicVector) : Prop :=
  ∃ record ∈ records, ∃ row vecs, CoversRecord lib rows record row vecs ∧
    ∃ v ∈ vecs, getEntry v "sense_id" = textTree sid ∧ lib.normVector v = some hit.vector ∧
      hit.model = model

/-- The vectors are those of a reply, which covers all of the records. -/
structure FromReply (lib : VectorsLib) (records : PseudoRecords) (rows : List Entries)
    (model : String) (out : VectorsOut) : Prop where
  covers : ∀ record ∈ records, ∃ row vecs, CoversRecord lib rows record row vecs
  taken : ∀ sid hit, out.lookup sid = some hit → TakenFrom lib records rows model sid hit

section Replies
variable {lib : VectorsLib}

theorem asId_eq_some {ids : List String} {value : JsonTree} {id : String}
    (h : asId ids value = some id) : value = textTree id := by
  unfold asId at h
  split at h
  · have hfound := List.find?_some h
    rw [textTree, of_decide_eq_true hfound]
  · cases h

theorem eq_map_obj {values : List JsonTree}
    (h : (values.filterMap asEntries).length = values.length) :
    values = (values.filterMap asEntries).map .obj := by
  induction values with
  | nil => rfl
  | cons value values ih =>
    have hle := List.length_filterMap_le asEntries values
    cases value with
    | obj entries =>
      rw [List.filterMap_cons_some (show asEntries (.obj entries) = some entries from rfl)] at h ⊢
      rw [List.map_cons, ← ih (by simpa using h)]
    | _ =>
      simp only [asEntries, List.filterMap_cons, List.length_cons] at h
      omega

theorem v15Label_mem {value : JsonTree} {label : String} (h : v15Label value = some label) :
    label ∈ v15Labels := by
  unfold v15Label at h
  split at h
  · split at h
    · exact List.mem_of_getElem? h
    · cases h
  · exact List.mem_of_mem_head? h
  · cases h

theorem weigh_eq_some {e : JsonTree} {w : String × ℚ} (h : lib.weigh e = some w) :
    w.1 ∈ v15Labels ∧ 0 < w.2 := by
  obtain ⟨entries, -, h⟩ := Option.bind_eq_some_iff.mp h
  obtain ⟨label, hlabel, h⟩ := Option.bind_eq_some_iff.mp h
  split at h
  · split at h
    · split at h
      · rename_i hpos
        obtain rfl := Option.some.inj h
        exact ⟨v15Label_mem hlabel, hpos.1⟩
      · cases h
    · cases h
  · cases h

theorem normVector_eq_some {v : Entries} {vector : List (String × ℚ)}
    (h : lib.normVector v = some vector) : ∃ weights : List (String × ℚ),
      1 ≤ weights.length ∧ weights.length ≤ 3 ∧ (∀ w ∈ weights, w.1 ∈ v15Labels ∧ 0 < w.2) ∧
        vector = weights.map fun w => (w.1, round4 (w.2 / (weights.map (·.2)).sum)) := by
  unfold VectorsLib.normVector at h
  split at h
  · split at h
    · rename_i entries _ hlength
      obtain ⟨weights, hweights, h⟩ := Option.bind_eq_some_iff.mp h
      dsimp only at h
      split at h
      · have hall := forall₂_of_mapM hweights
        refine ⟨weights, hall.length_eq ▸ hlength.1, hall.length_eq ▸ hlength.2, fun w hw => ?_,
          (Option.some.inj h).symm⟩
        obtain ⟨e, -, hweigh⟩ := exists_of_mem_mapM hweights hw
        exact weigh_eq_some hweigh
      · cases h
    · cases h
  · cases h

theorem validateVectors_eq_some {rows : List Entries} {record : String × List PseudoSense}
    {normed : List (String × List (String × ℚ))} (hrecord : RecordFacts record.2)
    (h : lib.validateVectors (getEntry ((lastWithLemma rows record.1).getD []) "vectors")
      (record.2.map (·.senseId)) = some normed) :
    (normed.map (·.1)).Perm (record.2.map (·.senseId)) ∧ ∃ row vecs, CoversRecord lib rows record row vecs ∧
      ∀ e ∈ normed, ∃ v ∈ vecs, getEntry v "sense_id" = textTree e.1 ∧ lib.normVector v = some e.2 := by
  obtain ⟨values, hvalues, ids, hids, hchecked, hnormed⟩ :
      ∃ values, getEntry ((lastWithLemma rows record.1).getD []) "vectors" = .arr values ∧ ∃ ids,
        (values.filterMap asEntries).mapM (fun v =>
          asId (record.2.map (·.senseId)) (getEntry v "sense_id")) = some ids ∧
        (ids.Perm (record.2.map (·.senseId)) ∧ values.length = (record.2.map (·.senseId)).length) ∧
        (values.filterMap asEntries).mapM (fun v => do
          let sid ← asId (record.2.map (·.senseId)) (getEntry v "sense_id")
          let vector ← lib.normVector v
          some (sid, vector)) = some normed := by
    unfold VectorsLib.validateVectors at h
    split at h
    · rename_i values hvalues
      obtain ⟨ids, hids, h⟩ := Option.bind_eq_some_iff.mp h
      split at h
      · exact ⟨values, hvalues, ids, hids, ‹_›, h⟩
      · cases h
    · cases h
  have hpairs : ∀ {v : Entries} {e : String × List (String × ℚ)},
      (asId (record.2.map (·.senseId)) (getEntry v "sense_id")).bind (fun sid =>
        (lib.normVector v).bind fun vector => some (sid, vector)) = some e →
      asId (record.2.map (·.senseId)) (getEntry v "sense_id") = some e.1 ∧
        lib.normVector v = some e.2 := by
    intro v e he
    obtain ⟨sid, hsid, he⟩ := Option.bind_eq_some_iff.mp he
    obtain ⟨vector, hvector, he⟩ := Option.bind_eq_some_iff.mp he
    obtain rfl := Option.some.inj he
    exact ⟨hsid, hvector⟩
  have hall := forall₂_of_mapM hids
  have hvalues' : values = (values.filterMap asEntries).map .obj :=
    eq_map_obj (by rw [hall.length_eq, hchecked.1.length_eq, hchecked.2])
  have hsids : (values.filterMap asEntries).map (getEntry · "sense_id") = ids.map textTree :=
    List.forall₂_eq_eq_eq ▸ List.forall₂_map_left_iff.mpr
      (List.forall₂_map_right_iff.mpr (hall.imp fun _ _ => asId_eq_some))
  have hkeys : normed.map (·.1) = ids := by
    have hfirst := mapM_of_forall₂ (List.forall₂_map_right_iff.mpr
      ((forall₂_of_mapM hnormed).imp fun _ _ he => (hpairs he).1))
    exact Option.some.inj (hfirst.symm.trans hids)
  obtain ⟨row, hrow⟩ : ∃ row, lastWithLemma rows record.1 = some row := by
    cases hlast : lastWithLemma rows record.1 with
    | none =>
      rw [hlast] at hvalues
      cases hvalues
    | some row => exact ⟨row, rfl⟩
  rw [hrow, Option.getD_some] at hvalues
  refine ⟨hkeys ▸ hchecked.1, row, values.filterMap asEntries, ⟨hrow, hvalues' ▸ hvalues,
    ⟨hrecord.nodup, ?_⟩, fun v hv => ?_⟩, fun e he => ?_⟩
  · have hperm := hchecked.1.map textTree
    rw [List.map_map] at hperm
    rw [hsids]
    exact hperm
  · obtain ⟨e, he⟩ := Option.isSome_iff_exists.mp
      (isSome_mapM.mp (Option.isSome_of_eq_some hnormed) v hv)
    exact Option.isSome_of_eq_some (hpairs he).2
  · obtain ⟨v, hv, hve⟩ := exists_of_mem_mapM hnormed he
    exact ⟨v, hv, asId_eq_some (hpairs hve).1, (hpairs hve).2⟩

theorem lookup_putVectors (model : String) (out : VectorsOut)
    (normed : List (String × List (String × ℚ))) (sid : String) :
    (∃ vector, (sid, vector) ∈ normed ∧ (putVectors model out normed).lookup sid =
        some ⟨vector.map fun e => (e.1, round4 e.2), model⟩) ∨
      sid ∉ normed.map (·.1) ∧ (putVectors model out normed).lookup sid = out.lookup sid := by
  induction normed using List.reverseRecOn with
  | nil => exact .inr ⟨List.not_mem_nil, rfl⟩
  | append_singleton normed e ih =>
    rw [putVectors, List.foldl_concat, lookup_setEntry]
    by_cases hsid : sid = e.1
    · exact .inl ⟨e.2, by simp [hsid], if_pos hsid⟩
    · rw [if_neg hsid]
      rcases ih with ⟨vector, hmem, hlookup⟩ | ⟨hnot, hlookup⟩
      · exact .inl ⟨vector, List.mem_append_left _ hmem, hlookup⟩
      · exact .inr ⟨by simpa [hsid] using hnot, hlookup⟩

theorem round4_normVector {v : Entries} {vector : List (String × ℚ)}
    (h : lib.normVector v = some vector) : vector.map (fun e => (e.1, round4 e.2)) = vector := by
  obtain ⟨weights, -, -, -, rfl⟩ := normVector_eq_some h
  rw [List.map_map]
  exact List.map_congr_left fun w _ => by simp only [Function.comp_apply, round4_round4]

/-- The vectors of the records that the loop has come over. -/
structure Merged (lib : VectorsLib) (rows : List Entries) (model : String) (done : PseudoRecords)
    (out : VectorsOut) : Prop extends FromReply lib done rows model out where
  complete : ∀ r ∈ done, ∀ sid ∈ r.2.map (·.senseId), (out.lookup sid).isSome = true

theorem Merged.empty (rows : List Entries) (model : String) : Merged lib rows model [] [] :=
  ⟨⟨fun _ h => absurd h List.not_mem_nil, fun _ _ h => by cases h⟩,
    fun _ h => absurd h List.not_mem_nil⟩

theorem Merged.next {rows : List Entries} {model : String} {done : PseudoRecords} {out : VectorsOut}
    (h : Merged lib rows model done out) {record : String × List PseudoSense}
    (hrecord : RecordFacts record.2) {normed : List (String × List (String × ℚ))}
    (hnormed : lib.validateVectors (getEntry ((lastWithLemma rows record.1).getD []) "vectors")
      (record.2.map (·.senseId)) = some normed) :
    Merged lib rows model (done ++ [record]) (putVectors model out normed) := by
  obtain ⟨hperm, row, vecs, hcovers, hvecs⟩ := validateVectors_eq_some hrecord hnormed
  refine ⟨⟨List.forall_mem_append.mpr
    ⟨h.covers, List.forall_mem_singleton.mpr ⟨row, vecs, hcovers⟩⟩, fun sid hit hhit => ?_⟩,
    fun r hr sid hsid => ?_⟩
  · rcases lookup_putVectors model out normed sid with ⟨vector, hmem, hlookup⟩ | ⟨-, hlookup⟩
    · obtain ⟨v, hv, hvsid, hnorm⟩ := hvecs _ hmem
      obtain rfl := Option.some.inj (hlookup.symm.trans hhit)
      refine ⟨record, by simp, row, vecs, hcovers, v, hv, hvsid, ?_, rfl⟩
      rw [round4_normVector hnorm]
      exact hnorm
    · obtain ⟨r, hr, htaken⟩ := h.taken sid hit (hlookup.symm.trans hhit)
      exact ⟨r, List.mem_append_left _ hr, htaken⟩
  · rcases lookup_putVectors model out normed sid with ⟨vector, -, hlookup⟩ | ⟨hnot, hlookup⟩
    · rw [hlookup]
      rfl
    · rcases List.mem_append.mp hr with hr | hr
      · rw [hlookup]
        exact h.complete r hr sid hsid
      · obtain rfl := List.mem_singleton.mp hr
        exact absurd (hperm.mem_iff.mpr hsid) hnot

theorem merged_foldlM {rows : List Entries} {model : String} {done records : PseudoRecords}
    {before out : VectorsOut} (hbefore : Merged lib rows model done before)
    (hrecords : ∀ r ∈ records, RecordFacts r.2)
    (h : records.foldlM (fun merged (lemma', senses) =>
      let vecs := getEntry ((lastWithLemma rows lemma').getD []) "vectors"
      (lib.validateVectors vecs (senses.map (·.senseId))).map (putVectors model merged)) before =
        some out) : Merged lib rows model (done ++ records) out := by
  induction records generalizing done before with
  | nil =>
    obtain rfl := Option.some.inj h
    rwa [List.append_nil]
  | cons record records ih =>
    rw [List.foldlM_cons] at h
    obtain ⟨next, hstep, h⟩ := Option.bind_eq_some_iff.mp h
    obtain ⟨normed, hnormed, rfl⟩ := Option.map_eq_some_iff.mp hstep
    obtain ⟨hrecord, hrest⟩ := List.forall_mem_cons.mp hrecords
    have hmerged := ih (hbefore.next hrecord hnormed) hrest h
    rwa [List.append_assoc] at hmerged

theorem fallback_facts {records : PseudoRecords} (hrecords : ∀ r ∈ records, RecordFacts r.2) :
    let out := records.foldl (fun out record =>
      putVectors "deterministic" out (fallbackVectors record.2)) []
    (∀ sid hit, out.lookup sid = some hit → hit = ⟨[(otherAbstract, 1)], "deterministic"⟩) ∧
      ∀ r ∈ records, ∀ sid ∈ r.2.map (·.senseId), (out.lookup sid).isSome = true := by
  intro out
  induction records using List.reverseRecOn with
  | nil => exact ⟨nofun, nofun⟩
  | append_singleton records record ih =>
    obtain ⟨hbefore, hlast⟩ := List.forall_mem_append.mp hrecords
    obtain ⟨hvalues, hsome⟩ := ih hbefore
    have hfallback : fallbackVectors record.2 =
        record.2.map fun s => (s.senseId, [(otherAbstract, 1)]) := by
      have hlabels := (List.forall_mem_singleton.mp hlast).labels
      have hknown : record.2.all (·.topicLabel ∈ v15Labels) = true := List.all_eq_true.mpr fun s hs => by
        rw [hlabels s hs]
        decide
      rw [fallbackVectors, if_pos hknown]
      exact List.map_congr_left fun s hs => by rw [hlabels s hs]
    have hround : round4 1 = 1 := by decide +kernel
    have hout : out = putVectors "deterministic" (records.foldl (fun out record =>
        putVectors "deterministic" out (fallbackVectors record.2)) []) (fallbackVectors record.2) :=
      List.foldl_concat _ _ _ _
    rw [hout, hfallback]
    refine ⟨fun sid hit hhit => ?_, fun r hr sid hsid => ?_⟩ <;>
      rcases lookup_putVectors "deterministic" (records.foldl (fun out record =>
        putVectors "deterministic" out (fallbackVectors record.2)) [])
        (record.2.map fun s => (s.senseId, [(otherAbstract, 1)])) sid with
        ⟨vector, hmem, hlookup⟩ | ⟨hnot, hlookup⟩
    · obtain ⟨s, -, heq⟩ := List.mem_map.mp hmem
      obtain ⟨-, rfl⟩ := Prod.mk.inj heq
      rw [← Option.some.inj (hlookup.symm.trans hhit), List.map_singleton, hround]
    · exact hvalues sid hit (hlookup.symm.trans hhit)
    · rw [hlookup]
      rfl
    · rw [hlookup]
      rcases List.mem_append.mp hr with hr | hr
      · exact hsome r hr sid hsid
      · obtain rfl := List.mem_singleton.mp hr
        rw [List.map_map] at hnot
        exact absurd hsid hnot

end Replies
/-! ## The promise -/

/-- Every picked sense of the batch has an entry. -/
def VectorsCall.Complete (call : VectorsCall) (out : VectorsOut) : Prop :=
  ∀ item ∈ call.batch, ∀ p ∈ call.picks (sourceItemKey item), p.senseId ≠ "" →
    (out.lookup p.senseId).isSome = true

def TakesReply (call : VectorsCall) (log : List VectorsAttempt) (out : VectorsOut) : Prop :=
  ∃ a ∈ log, ∃ raw pair data values, .reply raw pair ∈ a.answers ∧
    extractJson call.limits raw.toList = .ok data ∧ getEntry data "results" = .arr values ∧
      FromReply call.lib call.vectorsPseudoRecords (values.filterMap asEntries) a.model out

def IsFallback (out : VectorsOut) : Prop :=
  ∀ sid hit, out.lookup sid = some hit → hit = ⟨[(otherAbstract, 1)], "deterministic"⟩

structure AllOrFallback (call : VectorsCall) (r : VectorsState × VectorsEnd) : Prop where
  /-- It raises one of the four errors, or has an entry for every sense, all from one source. -/
  ends : (∃ e, r.2 = .raised e) ∨ ∃ out, r.2 = .returned out ∧ call.Complete out ∧
    (TakesReply call r.1.log out ∨ IsFallback out)
  /-- `RateLimited` is raised after attempts that all ended in quota exhaustion. -/
  limited : r.2 = .raised .rateLimited → r.1.log ≠ [] ∧ ∀ a ∈ r.1.log, a.Exhausted call.legLib

/-- The attempts on a batch as long as no reply is taken. -/
def VectorsCall.asked (call : VectorsCall) (script : Nat → Answer) : List VectorsAttempt :=
  if call.vectorsPseudoRecords = [] then []
  else (call.providerLoop script passOver call.walk call.start).1.log

/-- The rows of a reply that raises cannot be put under their lemmas; each such reply comes behind
one that covers the batch. -/
def RaisesBehindCover (call : VectorsCall) (script : Nat → Answer) : Prop :=
  ∀ pre a post raw, call.asked script = pre ++ a :: post → a.result = .text raw →
    call.read a.model raw = .raised →
      ∃ b ∈ pre, ∃ raw' out, b.result = .text raw' ∧ call.read b.model raw' = .merged out

section Law
variable {call : VectorsCall}

theorem complete_of_records {out : VectorsOut}
    (h : ∀ r ∈ call.vectorsPseudoRecords, ∀ sid ∈ r.2.map (·.senseId), (out.lookup sid).isSome = true) :
    call.Complete out := fun item hitem p hp hne => by
  obtain ⟨r, hr, hsid⟩ := (records_of_call call).2 item hitem p hp hne
  exact h r hr _ hsid

theorem takesReply_of_read {a : VectorsAttempt} {raw : String} {out : VectorsOut}
    {log : List VectorsAttempt} (hrecords : call.vectorsPseudoRecords ≠ []) (ha : a ∈ log)
    (hmet : ∃ pair, .reply raw pair ∈ a.answers) (h : call.read a.model raw = .merged out) :
    call.Complete out ∧ TakesReply call log out := by
  obtain ⟨pair, hpair⟩ := hmet
  unfold VectorsCall.read at h
  split at h
  · cases h
  · rename_i data hdata
    split at h
    · cases h
    · rename_i rows hrows
      split at h
      · rename_i out' hmerge
        obtain rfl := VectorsReading.merged.inj h
        have hmerged : Merged call.lib rows a.model call.vectorsPseudoRecords out' :=
          merged_foldlM (.empty rows a.model) (records_of_call call).1 hmerge
        refine ⟨complete_of_records hmerged.complete, a, ha, raw, pair, data, ?_⟩
        -- a reply without a list of results covers no record
        obtain ⟨record, hrecord⟩ := List.exists_mem_of_ne_nil _ hrecords
        obtain ⟨row, vecs, hcovers⟩ := hmerged.covers record hrecord
        have hne : rows ≠ [] := fun hnil => by
          rw [hnil] at hcovers
          cases hcovers.last
        obtain ⟨values, hvalues, rfl⟩ : ∃ values, getEntry data "results" = .arr values ∧
            rows = values.filterMap asEntries := by
          obtain ⟨hfound, -⟩ := Option.filter_eq_some_iff.mp hrows
          split at hfound
          · rename_i values hvalues
            exact ⟨values, hvalues, (Option.some.inj hfound).symm⟩
          · exact absurd (Option.some.inj hfound).symm hne
          · exact absurd (Option.some.inj hfound).symm hne
          · split at hfound
            · cases hfound
            · exact absurd (Option.some.inj hfound).symm hne
        exact ⟨values, hpair, hdata, hvalues, hmerged.toFromReply⟩
      · cases h

theorem allOrFallback_of_walk {script : Nat → Answer} (hrecords : call.vectorsPseudoRecords ≠ [])
    (h : (call.vectorsBatch script).2 ≠ .typeError) : AllOrFallback call (call.vectorsBatch script) := by
  obtain ⟨hfacts, hlog⟩ := walk_facts call script call.read
  unfold VectorsCall.vectorsBatch at h ⊢
  rw [if_neg hrecords] at h ⊢
  generalize call.providerLoop script call.read call.walk call.start = r at h hfacts hlog
  generalize call.providerLoop script passOver call.walk call.start = d at hfacts
  cases hfacts with
  | on s new _ _ hunspent =>
    dsimp only at h ⊢
    split
    · rename_i hlimited
      exact ⟨.inl ⟨.rateLimited, rfl⟩, fun _ => ⟨hlog hlimited.2, hunspent (fun _ => nofun) hlimited.1⟩⟩
    · obtain ⟨hvalues, hsome⟩ := fallback_facts (records_of_call call).1
      exact ⟨.inr ⟨_, rfl, complete_of_records hsome, .inr hvalues⟩, nofun⟩
  | cooled s new e _ _ he =>
    exact ⟨.inl ⟨e, rfl⟩, fun hlimited => absurd (VectorsEnd.raised.inj hlimited) he⟩
  | auth s new => exact ⟨.inl ⟨.auth, rfl⟩, nofun⟩
  | decided s d pre post a raw r hslog _ _ hdecides =>
    cases hread : call.read a.model raw with
    | merged out =>
      obtain rfl : .returned out = r := by simpa [hread, VectorsReading.ending] using hdecides.reading
      have ha : a ∈ s.log := by simp [hslog]
      obtain ⟨hcomplete, htakes⟩ := takesReply_of_read hrecords ha hdecides.met hread
      exact ⟨.inr ⟨out, rfl, hcomplete, .inl htakes⟩, nofun⟩
    | passed =>
      have hreading := hdecides.reading
      rw [hread] at hreading
      cases hreading
    | raised =>
      obtain rfl : .typeError = r := by simpa [hread, VectorsReading.ending] using hdecides.reading
      exact absurd rfl h

theorem mem_of_later_place {α : Type} {pre post pre' post' : List α} {a a' : α}
    (h : pre ++ a :: post = pre' ++ a' :: post') (hnot : a' ∉ pre) (hne : a' ≠ a) : a ∈ pre' := by
  rcases List.append_eq_append_iff.mp h with ⟨between, rfl, hrest⟩ | ⟨between, rfl, hrest⟩
  · cases between with
    | nil => exact absurd (List.cons.inj hrest).1.symm hne
    | cons b between =>
      rw [(List.cons.inj hrest).1]
      simp
  · cases between with
    | nil => exact absurd (List.cons.inj hrest).1 hne
    | cons b between =>
      rw [(List.cons.inj hrest).1] at hnot
      simp at hnot

theorem raisesBehindCover_iff {script : Nat → Answer} (hrecords : call.vectorsPseudoRecords ≠ []) :
    RaisesBehindCover call script ↔ (call.vectorsBatch script).2 ≠ .typeError := by
  obtain ⟨hfacts, -⟩ := walk_facts call script call.read
  have hasked : call.asked script = (call.providerLoop script passOver call.walk call.start).1.log :=
    if_neg hrecords
  -- where all replies are passed over none raises
  have hvacuous : (∀ a ∈ call.asked script, a.Passed call.read) → RaisesBehindCover call script :=
    fun hall pre a post raw heq hraw hraised => by
      have hpassed := hall a (by simp [heq]) raw hraw
      cases hpassed.symm.trans hraised
  unfold VectorsCall.vectorsBatch
  rw [if_neg hrecords]
  generalize call.providerLoop script call.read call.walk call.start = r at hfacts
  generalize call.providerLoop script passOver call.walk call.start = d at hfacts hasked
  cases hfacts with
  | on s new hlog hpassed =>
    refine iff_of_true (hvacuous fun a ha => hpassed a ?_) ?_
    · rw [hasked, hlog] at ha
      exact ha
    · dsimp only
      split <;> exact nofun
  | cooled s new e hlog hpassed =>
    refine iff_of_true (hvacuous fun a ha => hpassed a ?_) nofun
    rw [hasked, hlog] at ha
    exact ha
  | auth s new hlog hpassed =>
    refine iff_of_true (hvacuous fun a ha => hpassed a ?_) nofun
    rw [hasked, hlog] at ha
    exact ha
  | decided s d pre post a raw r _ hdry hpassed hdecides =>
    rw [hdry] at hasked
    replace hasked : call.asked script = pre ++ a :: post := hasked
    cases hread : call.read a.model raw with
    | merged out =>
      obtain rfl : .returned out = r := by simpa [hread, VectorsReading.ending] using hdecides.reading
      refine iff_of_true (fun pre' a' post' raw' heq hraw' hraised => ?_) nofun
      refine ⟨a, mem_of_later_place (hasked.symm.trans heq) (fun hmem => ?_) ?_, raw, out,
        hdecides.result, hread⟩
      · cases (hpassed a' hmem raw' hraw').symm.trans hraised
      · rintro rfl
        obtain rfl := CallResult.text.inj (hdecides.result.symm.trans hraw')
        cases hread.symm.trans hraised
    | passed =>
      have hreading := hdecides.reading
      rw [hread] at hreading
      cases hreading
    | raised =>
      obtain rfl : .typeError = r := by simpa [hread, VectorsReading.ending] using hdecides.reading
      refine iff_of_false (fun hbehind => ?_) (not_not.mpr rfl)
      obtain ⟨b, hb, raw', out, hraw', hmerged⟩ := hbehind pre a post raw hasked hdecides.result hread
      cases (hpassed b hb raw' hraw').symm.trans hmerged

/-- **All vectors or the fallback exactly when** each reply that raises comes behind one that covers
the batch. -/
theorem vectors_all_or_fallback_iff (call : VectorsCall) (script : Nat → Answer) :
    AllOrFallback call (call.vectorsBatch script) ↔ RaisesBehindCover call script := by
  by_cases hrecords : call.vectorsPseudoRecords = []
  · have hbatch : call.vectorsBatch script = (call.start, .returned []) := if_pos hrecords
    have hasked : call.asked script = [] := if_pos hrecords
    refine iff_of_true ?_ fun pre a post raw heq => ?_
    · rw [hbatch]
      refine ⟨.inr ⟨[], rfl, complete_of_records fun r hr => ?_, .inr fun _ _ h => by cases h⟩, nofun⟩
      rw [hrecords] at hr
      cases hr
    · rw [hasked] at heq
      simp at heq
  · rw [raisesBehindCover_iff hrecords]
    refine ⟨fun h herror => ?_, allOrFallback_of_walk hrecords⟩
    rcases h.ends with ⟨e, he⟩ | ⟨out, hout, -⟩
    · cases herror.symm.trans he
    · cases herror.symm.trans hout

end Law

/-- A batch of one word, on the default provider. -/
def runVectors : VectorsCall where
  py := .ascii
  lib := ⟨fun value => match value with
    | .int n => some (.finite n)
    | _ => none⟩
  limits := ⟨1000, 4300⟩
  batch := [⟨"word", "run"⟩]
  picks _ := [⟨"run#0", "to move fast"⟩]
  enDef _ := ""
  template := ""
  provider := "avalai"
  models := []
  ring := twoKeys
  rings := none
  tunneled := []

def numberReply (_ : Nat) : Answer := .reply "\x7b\"results\": 1\x7d" true

/-- A number in the place of the rows is no reply to pass over. -/
theorem number_leaves_batch : ¬AllOrFallback runVectors (runVectors.vectorsBatch numberReply) := by
  intro h
  have herror : (runVectors.vectorsBatch numberReply).2 = .typeError := by decide +kernel
  rcases h.ends with ⟨e, he⟩ | ⟨out, hout, -⟩
  · cases herror.symm.trans he
  · cases herror.symm.trans hout

end HamZaboon
