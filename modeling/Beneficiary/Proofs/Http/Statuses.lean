import Beneficiary.Proofs.Http.Requests
import Beneficiary.Proofs.Store.Refusals
import Beneficiary.Proofs.Text.Occurrence

/-!
# What a status tells

The status of a failure is found by words in its message. The message of each kind of failure holds
the words of its own status, so the status tells what is wrong with a request, unless a name or an
id that the message quotes holds one of the words too.
-/

namespace Beneficiary.Http

open Text

/-- The status that goes with what a failure is about. -/
def statusOfKind : Failure.Kind → Nat
  | .unavailable => 500
  | .unknown => 404
  | .invalid => 400
  | .taken => 409
  | .uncompiled => 422

/-- A text holds no word by which a message tells that something is not found or there already. -/
def IsNeutral (text : String) : Prop :=
  contains text "not found" = false ∧ contains text "already" = false

instance (text : String) : Decidable (IsNeutral text) := by
  unfold IsNeutral
  infer_instance

private theorem status_of_message {failure : Failure} (hother : ∀ e, failure ≠ .criteria e)
    {status : Nat} (h : Response.statusOf? failure.message = some status) :
    (Response.ofFailure failure).status = status := by
  unfold Response.ofFailure
  split
  · next e => exact absurd rfl (hother e)
  · rw [h]

/-- The words by which a message tells its status. -/
def statusWords : List String := ["not found", "already", "must"]

/-- Whether no word of a status can begin before a quotation or end after it. -/
def framesQuotation (before after : String) : Bool :=
  statusWords.all fun word =>
    endsApart word.toList before.toList && startsApart word.toList after.toList

private theorem framesQuotation_append {second after : String}
    (h : framesQuotation second after = true) (hlength : 9 ≤ second.toList.length)
    (first : String) : framesQuotation (first ++ second) after = true := by
  refine List.all_eq_true.mpr fun word hword => ?_
  have hapart := List.all_eq_true.mp h word hword
  have hwords : ∀ word ∈ statusWords, word.toList.length ≤ 9 := by decide
  rw [Bool.and_eq_true] at hapart ⊢
  rw [String.toList_append]
  exact ⟨endsApart_append hapart.1 ((hwords word hword).trans hlength) _, hapart.2⟩

private theorem isNeutral_decimalText (n : Nat) : IsNeutral (decimalText n) :=
  ⟨contains_decimalText (by decide) n, contains_decimalText (by decide) n⟩

/-- A neutral quotation leaves the status that the text around it tells. -/
theorem statusOf?_quoting (before after : String) (hframes : framesQuotation before after = true)
    {quoted : String} (hquoted : IsNeutral quoted) {status : Nat}
    (h : Response.statusOf? (before ++ after) = some status) :
    Response.statusOf? (before ++ quoted ++ after) = some status := by
  have hcontains : ∀ word ∈ statusWords,
      contains (before ++ quoted ++ after) word =
        (contains before word || contains quoted word || contains after word) ∧
      contains (before ++ after) word = (contains before word || contains after word) := by
    intro word hword
    have hapart := List.all_eq_true.mp hframes word hword
    rw [Bool.and_eq_true] at hapart
    exact ⟨contains_quoting hapart.1 hapart.2 quoted, contains_append hapart.1 after⟩
  obtain ⟨hfoundIn, hfoundAround⟩ := hcontains "not found" (by decide)
  obtain ⟨halreadyIn, halreadyAround⟩ := hcontains "already" (by decide)
  obtain ⟨hmustIn, hmustAround⟩ := hcontains "must" (by decide)
  have hfound : contains (before ++ quoted ++ after) "not found" =
      contains (before ++ after) "not found" := by
    rw [hfoundIn, hfoundAround, hquoted.1, Bool.or_false]
  have halready : contains (before ++ quoted ++ after) "already" =
      contains (before ++ after) "already" := by
    rw [halreadyIn, halreadyAround, hquoted.2, Bool.or_false]
  have hmust : contains (before ++ after) "must" = true →
      contains (before ++ quoted ++ after) "must" = true := by
    rw [hmustIn, hmustAround, Bool.or_eq_true, Bool.or_eq_true, Bool.or_eq_true]
    exact Or.imp_left .inl
  unfold Response.statusOf? at h ⊢
  rw [hfound, halready]
  split_ifs at h with hnotFound hthere hrule
  · rw [if_pos hnotFound, h]
  · rw [if_neg hnotFound, if_pos hthere, h]
  · rw [if_neg hnotFound, if_neg hthere, if_pos (hmust hrule), h]

private theorem statusOf?_quoting_twice (before between : String)
    (hframes : framesQuotation before between = true)
    (hbetween : framesQuotation between "" = true) (hlength : 9 ≤ between.toList.length)
    {quoted other : String} (hquoted : IsNeutral quoted) (hother : IsNeutral other) {status : Nat}
    (h : Response.statusOf? (before ++ between) = some status) :
    Response.statusOf? (before ++ quoted ++ between ++ other) = some status := by
  have hfirst := statusOf?_quoting before between hframes hquoted h
  rw [← String.append_empty (s := before ++ quoted ++ between)] at hfirst
  have htold := statusOf?_quoting _ _ (framesQuotation_append hbetween hlength _) hother hfirst
  rwa [String.append_empty] at htold

private theorem isNeutral_coreField {name : String} (h : (CoreField.find? name).isSome = true) :
    IsNeutral name := by
  have hall : ∀ field ∈ CoreField.all, IsNeutral field.name := by decide
  obtain ⟨field, hfield⟩ := Option.isSome_iff_exists.mp h
  have hname : field.name = name := by simpa [CoreField.find?] using List.find?_some hfield
  exact hname ▸ hall field (List.mem_of_find?_eq_some hfield)

private theorem isNeutral_choices {field : String} {choices : List String}
    (h : .notAChoice field choices ∈ NewHousehold.refusals) :
    IsNeutral field ∧ IsNeutral (joined ", " choices) := by
  have hall : ∀ field ∈ ["residence_status", "consent_sharing", "sex", "marital_status",
      "relationship", "observed_disability"],
      IsNeutral field ∧ ∀ choice ∈ CoreField.choicesOf field, IsNeutral choice := by
    decide
  rcases List.mem_append.mp h with h | h
  · simp at h
  · obtain ⟨checked, hchecked, heq⟩ := List.mem_map.mp h
    obtain ⟨rfl, rfl⟩ := Failure.notAChoice.inj heq
    obtain ⟨hfield, hchoices⟩ := hall checked hchecked
    refine ⟨hfield, ?_, ?_⟩
    · exact contains_joined (c := ',') (by decide) (by decide) (by decide)
        (by decide) (by decide) fun choice hchoice => (hchoices choice hchoice).1
    · exact contains_joined (c := ',') (by decide) (by decide) (by decide)
        (by decide) (by decide) fun choice hchoice => (hchoices choice hchoice).2

/-- A failure has the status of its kind, when what it quotes is neutral. -/
theorem status_ofFailure {texts : List String} (hneutral : ∀ text ∈ texts, IsNeutral text)
    {failure : Failure} (h : failure.QuotesFrom texts) :
    (Response.ofFailure failure).status = statusOfKind failure.kind := by
  cases failure with
  | missingTable table => cases table <;> decide
  | coreFieldName name =>
    change _ = 400
    apply status_of_message (by simp)
    exact statusOf?_quoting "Field name `" "` must not shadow a core field" (by decide)
      (isNeutral_coreField h) (by decide)
  | notAChoice field choices =>
    change _ = 400
    apply status_of_message (by simp)
    obtain ⟨hfield, hchoices⟩ := isNeutral_choices h
    exact statusOf?_quoting_twice "`" "` must be one of " (by decide) (by decide)
      (by decide) hfield hchoices (by decide)
  | fieldNameTaken name =>
    change _ = 409
    apply status_of_message (by simp)
    exact statusOf?_quoting "Field `" "` is already defined for this program" (by decide)
      (hneutral name h) (by decide)
  | householdIdTaken id =>
    change _ = 409
    apply status_of_message (by simp)
    exact statusOf?_quoting "Household " " already exists" (by decide) (hneutral id h)
      (by decide)
  | individualIdTaken id =>
    change _ = 409
    apply status_of_message (by simp)
    exact statusOf?_quoting "Individual " " already exists" (by decide) (hneutral id h)
      (by decide)
  | notIndividualField name =>
    change _ = 400
    apply status_of_message (by simp)
    exact statusOf?_quoting "Periodic field `" "` must be an INDIVIDUAL field" (by decide)
      (hneutral name h) (by decide)
  | unknownPeriodicField name =>
    change _ = 404
    apply status_of_message (by simp)
    have hfound : contains ("Periodic field `" ++ name ++ "` not found") "not found" = true := by
      rw [contains_quoting (by decide) (by decide), Bool.or_eq_true]
      exact .inr (by decide)
    exact if_pos hfound
  | notOneHead heads =>
    change _ = 400
    apply status_of_message (by simp)
    have htold := statusOf?_quoting "Households must have exactly one head, got " ""
      (by decide) (isNeutral_decimalText heads) (by decide : _ = some 400)
    rwa [String.append_empty] at htold
  | noSuchRound round numberOfRounds =>
    change _ = 400
    apply status_of_message (by simp)
    exact statusOf?_quoting_twice "Round " " must be between 1 and " (by decide)
      (by decide) (by decide) (isNeutral_decimalText _) (isNeutral_decimalText _)
      (by decide)
  | otherExclusionMode mode => cases mode <;> decide
  | criteria e => rfl
  | _ => decide

/-- Whether requests can ask for an operation. -/
def isServed : Operation → Bool
  | .getFlexAttributes _ => false
  | .getPeriodicFields _ => false
  | .getProgramFields _ => false
  | .getIndividual _ => false
  | .getPopulation _ => false
  | .getPopulationByHousehold _ => false
  | .getCurrentHouseholds _ => false
  | .getMembers _ => false
  | .getHead _ => false
  | _ => true

variable {s t : Store} {now : Moment} {operation : Operation}

/-- The response to an answer has the status of a success unless the operation names what is not
registered. A listing of households does not look for its program. -/
theorem status_ofAnswer {answer : Answer} (hserved : isServed operation = true)
    (hlisting : ∀ id, operation ≠ .getHouseholds id)
    (h : s.run now operation = .ok (answer, t)) :
    (operation.NamesUnknown s ∧ (Response.ofAnswer operation answer).status = 404) ∨
      (¬ operation.NamesUnknown s ∧
        (Response.ofAnswer operation answer).status ∈ [200, 201, 204]) := by
  have hcreated : 201 ∈ [200, 201, 204] := by decide
  have hanswered : 200 ∈ [200, 201, 204] := by decide
  have hwithdrawn : 204 ∈ [200, 201, 204] := by decide
  cases operation with
  | createProgram input =>
    obtain ⟨result, -, heq⟩ := map_eq_ok_iff.mp h
    rw [← (Prod.mk.inj heq).1]
    exact .inr ⟨not_false, hcreated⟩
  | getProgram id =>
    obtain ⟨rfl, -⟩ := Prod.mk.inj (Except.ok.inj h)
    cases hfound : s.program? id with
    | none => exact .inl ⟨Store.program?_eq_none_iff.mp hfound, rfl⟩
    | some program => exact .inr ⟨Store.not_unknown_of_program? hfound, hanswered⟩
  | getPrograms =>
    obtain ⟨rfl, -⟩ := Prod.mk.inj (Except.ok.inj h)
    exact .inr ⟨not_false, hanswered⟩
  | createFlexAttribute id input =>
    obtain ⟨result, hcreate, heq⟩ := map_eq_ok_iff.mp h
    rw [← (Prod.mk.inj heq).1]
    obtain ⟨⟨program, hfound⟩, -⟩ := Store.createFlexAttribute_eq_ok_iff.mp hcreate
    exact .inr ⟨Store.not_unknown_of_program? hfound, hcreated⟩
  | createPeriodicField id input =>
    obtain ⟨result, hcreate, heq⟩ := map_eq_ok_iff.mp h
    rw [← (Prod.mk.inj heq).1]
    obtain ⟨⟨program, hfound⟩, -⟩ := Store.createPeriodicField_eq_ok_iff.mp hcreate
    exact .inr ⟨Store.not_unknown_of_program? hfound, hcreated⟩
  | getFieldDescriptors id =>
    obtain ⟨result, hlist, heq⟩ := map_eq_ok_iff.mp h
    rw [← (Prod.mk.inj heq).1]
    obtain ⟨program, hprogram, -⟩ := bind_eq_ok_iff.mp hlist
    exact .inr ⟨Store.not_unknown_of_program? (Store.requireProgram_eq_ok_iff.mp hprogram),
      hanswered⟩
  | createHousehold id input =>
    obtain ⟨result, hcreate, heq⟩ := map_eq_ok_iff.mp h
    rw [← (Prod.mk.inj heq).1]
    obtain ⟨program, headIndex, hfound, -⟩ := Store.createHousehold_eq_ok_iff.mp hcreate
    exact .inr ⟨Store.not_unknown_of_program? hfound, hcreated⟩
  | getHousehold id =>
    obtain ⟨rfl, -⟩ := Prod.mk.inj (Except.ok.inj h)
    cases hfound : s.household? id with
    | none =>
      rw [Store.record?, hfound]
      exact .inl ⟨Store.household?_eq_none_iff.mp hfound, rfl⟩
    | some household =>
      rw [Store.record?, hfound]
      exact .inr ⟨Store.not_unknown_of_household? hfound, hanswered⟩
  | getHouseholds id => exact absurd rfl (hlisting id)
  | withdrawHousehold id =>
    obtain ⟨rfl, -⟩ := Prod.mk.inj (Except.ok.inj h)
    cases hfound : s.household? id with
    | none => exact .inl ⟨Store.household?_eq_none_iff.mp hfound, rfl⟩
    | some household => exact .inr ⟨Store.not_unknown_of_household? hfound, hwithdrawn⟩
  | withdrawIndividual id =>
    obtain ⟨rfl, -⟩ := Prod.mk.inj (Except.ok.inj h)
    cases hfound : s.individual? id with
    | none => exact .inl ⟨Store.individual?_eq_none_iff.mp hfound, rfl⟩
    | some individual => exact .inr ⟨Store.not_unknown_of_individual? hfound, hwithdrawn⟩
  | recordRound id input =>
    obtain ⟨⟨found, u⟩, hrecord, heq⟩ := map_eq_ok_iff.mp h
    obtain ⟨rfl, -⟩ := Prod.mk.inj heq
    rcases Store.recordRound_eq_ok_iff.mp hrecord with ⟨hnone, rfl, -⟩ | ⟨i, hfound, hround, -, rfl⟩
    · refine .inl ⟨?_, rfl⟩
      rintro field ⟨-, -, i, hi, hid, -⟩
      exact Store.individual?_eq_none_iff.mp hnone i hi hid
    · refine .inr ⟨fun hunknown => ?_, hanswered⟩
      obtain ⟨field, hfield⟩ := Store.exists_isRoundField hfound hround
      exact hunknown field hfield
  | validate id request asOf =>
    obtain ⟨summary, hvalidate, heq⟩ := map_eq_ok_iff.mp h
    rw [← (Prod.mk.inj heq).1]
    obtain ⟨program, targeting, hcompiled, -⟩ := Store.validate_eq_ok_iff.mp hvalidate
    obtain ⟨hfound, -⟩ := Store.compileTargeting_eq_ok_iff.mp hcompiled
    exact .inr ⟨Store.not_unknown_of_program? hfound, hanswered⟩
  | preview id request asOf =>
    obtain ⟨preview, hpreview, heq⟩ := map_eq_ok_iff.mp h
    rw [← (Prod.mk.inj heq).1]
    obtain ⟨program, targeting, hcompiled, -⟩ := Store.preview_eq_ok_iff.mp hpreview
    obtain ⟨hfound, -⟩ := Store.compileTargeting_eq_ok_iff.mp hcompiled
    exact .inr ⟨Store.not_unknown_of_program? hfound, hanswered⟩
  | _ => cases hserved

/-- The response to an operation is that to a failure which is the right one, or tells that what it
names is not registered, or has the status of a success when nothing is wrong with it. -/
theorem perform_cases (hs : s.Keyed) (hcatalogued : s.Catalogued)
    (hserved : isServed operation = true) :
    (∃ failure, s.IsRefusal operation failure ∧
        (perform now ⟨some s⟩ operation).1 = .ofFailure failure) ∨
      (operation.NamesUnknown s ∧ (perform now ⟨some s⟩ operation).1.status = 404) ∨
      (operation.IsRight s ∧ (perform now ⟨some s⟩ operation).1.status ∈ [200, 201, 204]) := by
  by_cases hlisting : ∃ id, operation = .getHouseholds id
  · obtain ⟨id, rfl⟩ := hlisting
    cases hfound : s.program? id with
    | none =>
      refine .inr (.inl ⟨Store.program?_eq_none_iff.mp hfound, ?_⟩)
      simp [perform, Database.run, Store.run, hfound, Response.notFound]
    | some program =>
      refine .inr (.inr ⟨⟨Store.not_unknown_of_program? hfound, trivial, not_false, trivial⟩, ?_⟩)
      simp [perform, answerWith, Database.run, Store.run, hfound, Response.ofOutcome,
        Response.ofAnswer, Response.successStatus]
  have hlisting : ∀ id, operation ≠ .getHouseholds id := fun id heq => hlisting ⟨id, heq⟩
  have hperform : perform now ⟨some s⟩ operation = answerWith now ⟨some s⟩ operation := by
    cases operation with
    | getHouseholds id => exact absurd rfl (hlisting id)
    | _ => rfl
  rw [hperform, answerWith]
  cases hrun : s.run now operation with
  | error failure =>
    rw [Store.run_eq_of_error hrun]
    exact .inl ⟨failure, Store.isRefusal_of_run hs hrun, rfl⟩
  | ok result =>
    rw [Store.run_eq_of_ok hrun]
    obtain ⟨hvalid, hfree, hcompiles⟩ := Store.answered_of_run hs hcatalogued hrun
    rcases status_ofAnswer hserved hlisting hrun with hunknown | ⟨hknown, hstatus⟩
    · exact .inr (.inl hunknown)
    · exact .inr (.inr ⟨⟨hknown, hvalid, hfree, hcompiles⟩, hstatus⟩)

/-- The operation that a request asks for is one of those served. -/
theorem isServed_of_operation? {request : Request} {today : Date}
    (h : request.operation? today = some operation) : isServed operation = true := by
  obtain ⟨endpoint, -, htask⟩ := operation?_eq_some_iff.mp h
  have hread : endpoint.readTask? = some (.ok (.operation operation)) →
      isServed operation = true := by
    intro htask
    rcases Endpoint.readTask?_cases htask with rfl | ⟨make, hmake, id, rfl⟩
    · rfl
    · simp only [List.mem_cons, List.not_mem_nil, or_false] at hmake
      rcases hmake with rfl | rfl | rfl | rfl <;> rfl
  unfold Endpoint.task? at htask
  split at htask
  · exact hread htask
  · exact hread htask
  · cases endpoint with
    | programs =>
      obtain ⟨input, -, heq⟩ := map_eq_ok_iff.mp (Option.some.inj htask)
      rw [← Task.operation.inj heq]
      rfl
    | flexAttributes =>
      obtain ⟨id, input, -, -, rfl⟩ := Endpoint.onIdWith_eq_some_iff.mp htask
      rfl
    | periodicFields =>
      obtain ⟨id, input, -, -, rfl⟩ := Endpoint.onIdWith_eq_some_iff.mp htask
      rfl
    | households =>
      obtain ⟨id, input, -, -, rfl⟩ := Endpoint.onIdWith_eq_some_iff.mp htask
      rfl
    | householdWithdrawal =>
      obtain ⟨id, -, rfl⟩ := Endpoint.onId_eq_some_iff.mp htask
      rfl
    | individualWithdrawal =>
      obtain ⟨id, -, rfl⟩ := Endpoint.onId_eq_some_iff.mp htask
      rfl
    | periodicData =>
      obtain ⟨id, input, -, -, rfl⟩ := Endpoint.onIdWith_eq_some_iff.mp htask
      rfl
    | validation =>
      obtain ⟨id, asOf, input, -, -, -, rfl⟩ := Endpoint.onTarget_eq_some_iff.mp htask
      rfl
    | preview =>
      obtain ⟨id, asOf, input, -, -, -, rfl⟩ := Endpoint.onTarget_eq_some_iff.mp htask
      rfl
    | _ => cases htask
  · cases htask

/-- A failure has the status of criteria exactly when criteria fail, and never that of a success. -/
theorem status_ofFailure_cases (failure : Failure) :
    ((Response.ofFailure failure).status = 422 ↔ failure.kind = .uncompiled) ∧
      (Response.ofFailure failure).status ∉ [200, 201, 204] := by
  by_cases hcriteria : ∃ e, failure = .criteria e
  · obtain ⟨e, rfl⟩ := hcriteria
    exact ⟨iff_of_true rfl rfl, by simp [Response.ofFailure]⟩
  have hother : ∀ e, failure ≠ .criteria e := fun e heq => hcriteria ⟨e, heq⟩
  have hkind : failure.kind ≠ .uncompiled := by
    cases failure with
    | criteria e => exact absurd rfl (hother e)
    | _ => simp [Failure.kind]
  have htold : (Response.ofFailure failure).status ∈ [400, 404, 409, 500] := by
    unfold Response.ofFailure
    split
    · next e => exact absurd rfl (hother e)
    · split
      · next status hstatus =>
        unfold Response.statusOf? at hstatus
        split_ifs at hstatus <;> simp [← Option.some.inj hstatus]
      · simp
  refine ⟨iff_of_false (fun h => ?_) hkind, fun h => ?_⟩
  · rw [h] at htold
    simp at htold
  · simp only [List.mem_cons, List.not_mem_nil, or_false] at h htold
    omega

private theorem status_eq_iff {kind : Failure.Kind} (h : operation.IsWrong s kind)
    (other : Failure.Kind) :
    statusOfKind kind = statusOfKind other ↔ operation.IsWrong s other := by
  constructor
  · intro hstatus
    have hinjective : ∀ a b, statusOfKind a = statusOfKind b → a = b := by
      intro a b
      cases a <;> cases b <;> simp [statusOfKind]
    rwa [← hinjective kind other hstatus]
  · intro hother
    rw [h.unique hother]

/-- The status of a response tells what is wrong with the request. It is that of a success exactly
when nothing is, and 422 when criteria do not compile. If the names and ids that the request states
hold no word by which messages tell a status, it is 404 exactly when the request names something
that is not registered, 400 when it breaks a rule, and 409 when a name or an id is taken. -/
theorem status_tells_failure (hs : s.Reachable) (now : Moment) {request : Request}
    (hasked : request.operation? now.date = some operation) :
    ((respond now ⟨some s⟩ request).1.status ∈ [200, 201, 204] ↔ operation.IsRight s) ∧
    ((respond now ⟨some s⟩ request).1.status = 422 ↔
      ¬ operation.NamesUnknown s ∧ operation.IsValid s ∧ ¬ operation.Repeats s ∧
        ¬ operation.Compiles s) ∧
    ((∀ text ∈ operation.quoted, IsNeutral text) →
      ((respond now ⟨some s⟩ request).1.status = 404 ↔ operation.NamesUnknown s) ∧
      ((respond now ⟨some s⟩ request).1.status = 400 ↔
        ¬ operation.NamesUnknown s ∧ ¬ operation.IsValid s) ∧
      ((respond now ⟨some s⟩ request).1.status = 409 ↔
        ¬ operation.NamesUnknown s ∧ operation.IsValid s ∧ operation.Repeats s)) := by
  rw [(respond_eq hasked).1]
  rcases perform_cases hs.invariants.1 hs.catalogued (isServed_of_operation? hasked) with
    ⟨failure, ⟨hwrong, hquotes⟩, hresponse⟩ | ⟨hunknown, hstatus⟩ | ⟨hright, hstatus⟩
  · rw [hresponse]
    obtain ⟨hcriteria, hfailed⟩ := status_ofFailure_cases failure
    refine ⟨iff_of_false hfailed hwrong.not_isRight, hcriteria.trans ?_, fun hneutral => ?_⟩
    · constructor
      · intro hkind
        rwa [hkind] at hwrong
      · intro huncompiled
        exact hwrong.unique huncompiled
    · rw [status_ofFailure hneutral hquotes]
      exact ⟨status_eq_iff hwrong .unknown, status_eq_iff hwrong .invalid,
        status_eq_iff hwrong .taken⟩
  · have hwrong : operation.IsWrong s .unknown := hunknown
    rw [hstatus]
    exact ⟨iff_of_false (by decide) hwrong.not_isRight, status_eq_iff hwrong .uncompiled, fun _ =>
      ⟨status_eq_iff hwrong .unknown, status_eq_iff hwrong .invalid, status_eq_iff hwrong .taken⟩⟩
  · have hnever : ∀ kind, (perform now ⟨some s⟩ operation).1.status = statusOfKind kind ↔
        operation.IsWrong s kind := by
      intro kind
      refine iff_of_false (fun h => ?_) fun h => h.not_isRight hright
      rw [h] at hstatus
      cases kind <;> simp [statusOfKind] at hstatus
    exact ⟨iff_of_true hstatus hright, hnever .uncompiled, fun _ =>
      ⟨hnever .unknown, hnever .invalid, hnever .taken⟩⟩

/-- A household attribute of a name, with texts as values. -/
def attributeNamed (name : String) : NewFlexAttribute :=
  { name, owner := .household, valueType := .string, label := none, choices := [] }

/-- A program registers an attribute of a name. -/
def attributeCalls (name : String) : List Call :=
  [ .createProgram { name := "Cash", businessArea := "A", mode := none },
    .createFlexAttribute (Store.idAfter 0) (attributeNamed name)
  ].map fun operation => { now := Store.exampleMoment, operation }

/-- The store that the calls leave behind. -/
def attributeStore (name : String) : Store :=
  ((Database.unmade.migrateAfter 0).after (attributeCalls name)).tables.getD .empty

/-- A request to register an attribute of a name in the program. -/
def attributeRequest (name : String) : Request :=
  { method := .post
    target := "/api/v1/programs/d1f7a9c3-5b2e-4c8a-b6e4-917c30000000/flex-attributes"
    contentType := some "application/json"
    origin := none
    body := "\x7b\"name\":\"" ++ name ++ "\",\"owner\":\"HOUSEHOLD\",\"value_type\":\"STRING\"\x7d" }

/-- The store of the calls is reachable. -/
theorem attributeStore_reachable (name : String) : (attributeStore name).Reachable :=
  Store.reachable_after (attributeCalls name)

/-- The requests ask for the attribute that the store has. -/
theorem attributeRequest_operation? {name : String} (h : name ∈ ["district", "not found"]) :
    (attributeRequest name).operation? Store.exampleMoment.date =
      some (.createFlexAttribute (Store.idAfter 0) (attributeNamed name)) := by
  have hasks : ∀ name ∈ ["district", "not found"],
      ((attributeRequest name).operation? Store.exampleMoment.date).any (fun
        | .createFlexAttribute id input =>
          decide (id = Store.idAfter 0 ∧ input = attributeNamed name)
        | _ => false) = true := by
    decide +kernel
  obtain ⟨operation, hasked, hattribute⟩ := (Option.any_eq_true ..).mp (hasks name h)
  rw [hasked]
  split at hattribute
  · obtain ⟨rfl, rfl⟩ := of_decide_eq_true hattribute
    rfl
  · cases hattribute

/-- A repeated name is told apart from other failures. -/
theorem district_conflicts :
    (attributeStore "district").Reachable ∧
      (respond Store.exampleMoment ⟨some (attributeStore "district")⟩
        (attributeRequest "district")).1.status = 409 ∧
      Operation.Repeats (attributeStore "district")
        (.createFlexAttribute (Store.idAfter 0) (attributeNamed "district")) := by
  have hs := attributeStore_reachable "district"
  have hasked := attributeRequest_operation? (by decide : "district" ∈ ["district", "not found"])
  obtain ⟨-, -, htells⟩ := status_tells_failure hs Store.exampleMoment hasked
  have hneutral : ∀ text ∈ ["district"], IsNeutral text := by decide +kernel
  obtain ⟨-, -, hconflict⟩ := htells hneutral
  have hstatus : (respond Store.exampleMoment ⟨some (attributeStore "district")⟩
      (attributeRequest "district")).1.status = 409 := by
    decide +kernel
  exact ⟨hs, hstatus, (hconflict.mp hstatus).2.2⟩

/-- A repeated name is answered like an unknown program when it reads `not found`. -/
theorem status_not_conflict :
    (attributeStore "not found").Reachable ∧
      ∃ operation, (attributeRequest "not found").operation? Store.exampleMoment.date =
          some operation ∧
        ¬ operation.NamesUnknown (attributeStore "not found") ∧
        operation.IsValid (attributeStore "not found") ∧
        operation.Repeats (attributeStore "not found") ∧
        (respond Store.exampleMoment ⟨some (attributeStore "not found")⟩
          (attributeRequest "not found")).1.status = 404 := by
  have hknown : ¬ ∀ p ∈ (attributeStore "not found").programs, p.id ≠ Store.idAfter 0 := by
    decide +kernel
  have hcore : (CoreField.find? "not found").isNone = true := by decide +kernel
  have hrepeats : ∃ d ∈ (attributeStore "not found").registeredDescriptors (Store.idAfter 0),
      d.name = "not found" := by
    decide +kernel
  refine ⟨attributeStore_reachable _, _, attributeRequest_operation? (by decide), hknown,
    ⟨by decide +kernel, Option.isNone_iff_eq_none.mp hcore, .inl rfl⟩, hrepeats, ?_⟩
  decide +kernel

end Beneficiary.Http
