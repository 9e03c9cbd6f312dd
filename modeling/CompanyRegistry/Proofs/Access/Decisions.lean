import CompanyRegistry.Proofs.Access.Tokens

/-!
# Decisions

Who is let in, on whose word, and what is asked to find out. A store of identities may answer by what it
was asked before; `traced` runs an authorisation against such a store and keeps every probe it was sent.
The run takes rules off the front of the list as long as they pass (`Passes`, `run_of_passes`) and ends at
the first one that does not (`Stops`, `run_of_stops`); one of the two always happens (`passes_or_stops`).
So outcome and probes are settled together (`traced_eq_iff`).

Of a store that answers a probe the same way each time, the order of the rules is irrelevant
(`validate_eq_ok_iff`). One whose answers change may let a bearer in by one order and not by another, but
whoever passes a list of rules still passes its beginnings (`Passes.of_append`).
-/

namespace CompanyRegistry.Validator

/-! ### Asking, with what is asked kept -/

section Asking

variable {m : Type → Type} [Monad m]

/-- `checkRules`, of a store that answers in a monad. -/
def checkRulesIn (ask : Probe → m (Except ProbeError Bool)) (op : Operation) (claims : Claims) :
    List Rule → m (Except AuthError Unit)
  | [] => pure (.ok ())
  | r :: rs =>
    match r.bind claims with
    | none => pure (.error (.denied r.name op))
    | some probe => do
      match ← ask probe with
      | .error e => pure (.error (.query r.name op e))
      | .ok false => pure (.error (.denied r.name op))
      | .ok true => checkRulesIn ask op claims rs

/-- `validate`, of a store that answers in a monad. -/
def validateIn (k : Token.Key) (ask : Probe → m (Except ProbeError Bool)) (clock now : Int)
    (token : Option String) (op : Operation) (rules : List Rule) : m (Except AuthError Claims) :=
  match token.bind tokenOf? with
  | none => pure (.error .missingToken)
  | some t =>
    match Token.decode k clock now t with
    | .error r => pure (.error (.invalidToken r))
    | .ok claims => do
      let checked ← checkRulesIn ask op claims rules
      pure (checked.map fun _ => claims)

end Asking

theorem checkRulesIn_id (ask : Identities) (op : Operation) (claims : Claims) (rules : List Rule) :
    checkRulesIn (m := Id) ask op claims rules = checkRules ask op claims rules := by
  induction rules with
  | nil => rfl
  | cons r rules ih =>
    unfold checkRulesIn checkRules
    cases r.bind claims with
    | none => rfl
    | some p =>
      dsimp only [bind]
      cases ask p with
      | error e => rfl
      | ok allowed =>
        cases allowed with
        | false => rfl
        | true => exact ih

theorem validateIn_id (k : Token.Key) (ask : Identities) (clock now : Int) (token : Option String)
    (op : Operation) (rules : List Rule) :
    validateIn (m := Id) k ask clock now token op rules =
      validate k ask clock now token op rules := by
  unfold validateIn validate
  simp only [checkRulesIn_id]
  rfl

/-- A store of identities whose answer may depend on the probes it was sent before. -/
abbrev Answering := List Probe → Identities

def recording (store : Answering) (p : Probe) : StateM (List Probe) (Except ProbeError Bool) :=
  modifyGet fun asked => (store asked p, asked ++ [p])

/-- The outcome of an authorisation and the probes that were sent for it, in order. -/
def traced (k : Token.Key) (store : Answering) (clock now : Int) (token : Option String)
    (op : Operation) (rules : List Rule) : Except AuthError Claims × List Probe :=
  (validateIn k (recording store) clock now token op rules).run []

/-! ### Rules -/

/-- The probes of some rules for a bearer. A rule that denies the bearer outright has none. -/
def probes (claims : Claims) (rules : List Rule) : List Probe := rules.filterMap (·.bind claims)

/-- After some probes, each of the rules asks one and is told yes. -/
inductive Passes (store : Answering) (claims : Claims) : List Probe → List Rule → Prop
  | nil (asked : List Probe) : Passes store claims asked []
  | cons {asked : List Probe} {r : Rule} {rules : List Rule} {p : Probe} :
      r.bind claims = some p → store asked p = .ok true → Passes store claims (asked ++ [p]) rules →
      Passes store claims asked (r :: rules)

/-- After some probes, a rule ends the authorisation with an error that names it. -/
inductive Stops (store : Answering) (op : Operation) (claims : Claims) (asked : List Probe) (r : Rule) :
    AuthError → Prop
  | outright : r.bind claims = none → Stops store op claims asked r (.denied r.name op)
  | refused {p : Probe} :
      r.bind claims = some p → store asked p = .ok false →
      Stops store op claims asked r (.denied r.name op)
  | failed {p : Probe} {cause : ProbeError} :
      r.bind claims = some p → store asked p = .error cause →
      Stops store op claims asked r (.query r.name op cause)

section Rules

variable {store : Answering} {op : Operation} {claims : Claims} {asked : List Probe} {r : Rule}
  {rules before after : List Rule} {e : AuthError}

theorem probes_cons_of_some {p : Probe} (h : r.bind claims = some p) (rules : List Rule) :
    probes claims (r :: rules) = p :: probes claims rules :=
  List.filterMap_cons_some h

theorem probes_append (claims : Claims) (before after : List Rule) :
    probes claims (before ++ after) = probes claims before ++ probes claims after :=
  List.filterMap_append

theorem run_cons_of_some {p : Probe} (h : r.bind claims = some p) (rules : List Rule) :
    (checkRulesIn (recording store) op claims (r :: rules)).run asked =
      match store asked p with
      | .error cause => (.error (.query r.name op cause), asked ++ [p])
      | .ok false => (.error (.denied r.name op), asked ++ [p])
      | .ok true => (checkRulesIn (recording store) op claims rules).run (asked ++ [p]) := by
  rw [checkRulesIn, h]
  simp only [StateT.run_bind, recording, StateT.run_modifyGet, pure_bind]
  cases store asked p with
  | error cause => rfl
  | ok allowed => cases allowed <;> rfl

/-- Rules that pass are behind the run, and their probes are sent. -/
theorem run_of_passes (h : Passes store claims asked before) (after : List Rule) :
    (checkRulesIn (recording store) op claims (before ++ after)).run asked =
      (checkRulesIn (recording store) op claims after).run (asked ++ probes claims before) := by
  induction h with
  | nil asked => simp [probes]
  | cons hbind hanswer _ ih =>
    rw [List.cons_append, run_cons_of_some hbind, hanswer]
    refine ih.trans ?_
    rw [probes_cons_of_some hbind, List.append_assoc, List.singleton_append]

/-- A rule that stops ends the run, whatever follows it. -/
theorem run_of_stops (h : Stops store op claims asked r e) (after : List Rule) :
    (checkRulesIn (recording store) op claims (r :: after)).run asked =
      (.error e, asked ++ probes claims [r]) := by
  cases h with
  | outright hbind =>
    rw [checkRulesIn, hbind]
    simp only [probes, List.filterMap_cons, hbind, List.filterMap_nil, List.append_nil]
    rfl
  | refused hbind hanswer => rw [run_cons_of_some hbind, hanswer, probes_cons_of_some hbind]; rfl
  | failed hbind hanswer => rw [run_cons_of_some hbind, hanswer, probes_cons_of_some hbind]; rfl

/-- Either every rule passes, or there is a first one that stops. -/
theorem passes_or_stops (store : Answering) (op : Operation) (claims : Claims) (asked : List Probe)
    (rules : List Rule) :
    Passes store claims asked rules ∨
      ∃ before r after e, rules = before ++ r :: after ∧ Passes store claims asked before ∧
        Stops store op claims (asked ++ probes claims before) r e := by
  -- each rule that passes adds its probe to those asked, so the claim is for whatever was asked before
  induction rules generalizing asked with
  | nil => exact Or.inl (.nil asked)
  | cons r rules ih =>
    have hstops : ∀ {e}, Stops store op claims asked r e →
        ∃ before r' after e', r :: rules = before ++ r' :: after ∧
          Passes store claims asked before ∧
          Stops store op claims (asked ++ probes claims before) r' e' := by
      intro e h
      refine ⟨[], r, rules, e, rfl, .nil asked, ?_⟩
      rwa [probes, List.filterMap_nil, List.append_nil]
    cases hbind : r.bind claims with
    | none => exact Or.inr (hstops (.outright hbind))
    | some p =>
      cases hanswer : store asked p with
      | error cause => exact Or.inr (hstops (.failed hbind hanswer))
      | ok allowed =>
        cases allowed with
        | false => exact Or.inr (hstops (.refused hbind hanswer))
        | true =>
          rcases ih (asked ++ [p]) with hpasses | ⟨before, r', after, e, rfl, hpasses, hstop⟩
          · exact Or.inl (.cons hbind hanswer hpasses)
          · refine Or.inr ⟨r :: before, r', after, e, rfl, .cons hbind hanswer hpasses, ?_⟩
            rwa [probes_cons_of_some hbind, ← List.singleton_append, ← List.append_assoc]

theorem Passes.of_append (h : Passes store claims asked (before ++ after)) :
    Passes store claims asked before := by
  induction before generalizing asked with
  | nil => exact .nil asked
  | cons r before ih =>
    cases h with
    | cons hbind hanswer hrest => exact .cons hbind hanswer (ih hrest)

/-- A rule lets a bearer pass, on the word of a store that answers a probe the same way each time. -/
def Allows (ask : Identities) (claims : Claims) (r : Rule) : Prop :=
  ∃ p, r.bind claims = some p ∧ ask p = .ok true

theorem passes_steady_iff {ask : Identities} :
    Passes (fun _ => ask) claims asked rules ↔ ∀ r ∈ rules, Allows ask claims r := by
  induction rules generalizing asked with
  | nil => simp [Passes.nil]
  | cons r rules ih =>
    rw [List.forall_mem_cons]
    constructor
    · intro h
      cases h with
      | cons hbind hanswer hrest => exact ⟨⟨_, hbind, hanswer⟩, ih.mp hrest⟩
    · rintro ⟨⟨p, hbind, hanswer⟩, hrest⟩
      exact .cons hbind hanswer (ih.mpr hrest)

end Rules

/-! ### Authorisations -/

def Carries (token : Option String) (t : String) : Prop := ∃ text, token = some text ∧ Bears text t

/-- A request presents claims: it carries a token that decodes to them. -/
def Presents (k : Token.Key) (clock now : Int) (token : Option String) (claims : Claims) : Prop :=
  ∃ t, Carries token t ∧ Token.decode k clock now t = .ok claims

/-- How an authorisation may end, stage by stage, and the probes that were sent up to there. -/
inductive Decided (k : Token.Key) (store : Answering) (clock now : Int) (token : Option String)
    (op : Operation) (rules : List Rule) : Except AuthError Claims → List Probe → Prop
  | missing :
      (∀ t, ¬ Carries token t) →
      Decided k store clock now token op rules (.error .missingToken) []
  | invalid {t : String} {cause : Token.Refusal} :
      Carries token t → Token.decode k clock now t = .error cause →
      Decided k store clock now token op rules (.error (.invalidToken cause)) []
  | stopped {claims : Claims} {before : List Rule} {r : Rule} {after : List Rule} {e : AuthError} :
      Presents k clock now token claims → rules = before ++ r :: after →
      Passes store claims [] before → Stops store op claims (probes claims before) r e →
      Decided k store clock now token op rules (.error e) (probes claims (before ++ [r]))
  | accepted {claims : Claims} :
      Presents k clock now token claims → Passes store claims [] rules →
      Decided k store clock now token op rules (.ok claims) (probes claims rules)

section Authorisations

variable {k : Token.Key} {store : Answering} {ask : Identities} {clock now : Int}
  {token : Option String} {op : Operation} {rules : List Rule} {claims : Claims} {t : String}

theorem carries_iff : Carries token t ↔ token.bind tokenOf? = some t := by
  simp only [Carries, Option.bind_eq_some_iff, tokenOf?_eq_some_iff]

theorem traced_of_presents (h : Presents k clock now token claims) :
    traced k store clock now token op rules =
      ((checkRulesIn (recording store) op claims rules).run []).map
        (fun checked => checked.map fun _ => claims) id := by
  obtain ⟨t, hcarries, hdecode⟩ := h
  unfold traced validateIn
  rw [carries_iff.mp hcarries]
  dsimp only
  rw [hdecode]
  rfl

theorem traced_of_decided {outcome : Except AuthError Claims} {asked : List Probe}
    (h : Decided k store clock now token op rules outcome asked) :
    traced k store clock now token op rules = (outcome, asked) := by
  cases h with
  | missing hnone =>
    have htoken : token.bind tokenOf? = none :=
      Option.eq_none_iff_forall_ne_some.mpr fun t ht => hnone t (carries_iff.mpr ht)
    unfold traced validateIn
    rw [htoken]
    rfl
  | invalid hcarries hdecode =>
    unfold traced validateIn
    rw [carries_iff.mp hcarries]
    dsimp only
    rw [hdecode]
    rfl
  | stopped hpresents hrules hpasses hstops =>
    rw [traced_of_presents hpresents, hrules, run_of_passes hpasses, List.nil_append,
      run_of_stops hstops, probes_append]
    rfl
  | @accepted claims hpresents hpasses =>
    have hrun : (checkRulesIn (recording store) op claims (rules ++ [])).run [] = _ :=
      run_of_passes hpasses []
    rw [List.append_nil] at hrun
    rw [traced_of_presents hpresents, hrun]
    rfl

theorem exists_decided (k : Token.Key) (store : Answering) (clock now : Int) (token : Option String)
    (op : Operation) (rules : List Rule) :
    ∃ outcome asked, Decided k store clock now token op rules outcome asked := by
  by_cases hcarries : ∃ t, Carries token t
  · obtain ⟨t, hcarries⟩ := hcarries
    cases hdecode : Token.decode k clock now t with
    | error cause => exact ⟨_, _, .invalid hcarries hdecode⟩
    | ok claims =>
      have hpresents : Presents k clock now token claims := ⟨t, hcarries, hdecode⟩
      rcases passes_or_stops store op claims [] rules with
        hpasses | ⟨before, r, after, e, hrules, hpasses, hstops⟩
      · exact ⟨_, _, .accepted hpresents hpasses⟩
      · exact ⟨_, _, .stopped hpresents hrules hpasses hstops⟩
  · exact ⟨_, _, .missing (not_exists.mp hcarries)⟩

/-- Every authorisation ends in the one way that its stages allow. -/
theorem traced_eq_iff {outcome : Except AuthError Claims} {asked : List Probe} :
    traced k store clock now token op rules = (outcome, asked) ↔
      Decided k store clock now token op rules outcome asked := by
  refine ⟨?_, traced_of_decided⟩
  intro h
  -- some end is allowed, and the run has only one
  obtain ⟨outcome', asked', hdecided⟩ := exists_decided k store clock now token op rules
  have hsame := h.symm.trans (traced_of_decided hdecided)
  cases hsame
  exact hdecided

theorem traced_fst_eq_ok_iff :
    (traced k store clock now token op rules).1 = .ok claims ↔
      Presents k clock now token claims ∧ Passes store claims [] rules := by
  constructor
  · intro h
    obtain ⟨outcome, asked, hdecided⟩ := exists_decided k store clock now token op rules
    rw [traced_of_decided hdecided] at h
    cases h
    cases hdecided with
    | accepted hpresents hpasses => exact ⟨hpresents, hpasses⟩
  · rintro ⟨hpresents, hpasses⟩
    rw [traced_of_decided (.accepted hpresents hpasses)]

theorem run_steady_fst (ask : Identities) (op : Operation) (claims : Claims) (asked : List Probe)
    (rules : List Rule) :
    ((checkRulesIn (recording fun _ => ask) op claims rules).run asked).1 =
      checkRules ask op claims rules := by
  induction rules generalizing asked with
  | nil => rfl
  | cons r rules ih =>
    cases hbind : r.bind claims with
    | none =>
      rw [checkRulesIn, checkRules, hbind]
      rfl
    | some p =>
      rw [run_cons_of_some hbind, checkRules, hbind]
      dsimp only
      cases ask p with
      | error cause => rfl
      | ok allowed =>
        cases allowed with
        | false => rfl
        | true => exact ih _

/-- Keeping the probes changes no outcome. -/
theorem traced_steady_fst (k : Token.Key) (ask : Identities) (clock now : Int)
    (token : Option String) (op : Operation) (rules : List Rule) :
    (traced k (fun _ => ask) clock now token op rules).1 =
      validate k ask clock now token op rules := by
  unfold traced validateIn validate
  cases token.bind tokenOf? with
  | none => rfl
  | some t =>
    dsimp only
    cases Token.decode k clock now t with
    | error cause => rfl
    | ok claims => exact congrArg (·.map fun _ => claims) (run_steady_fst ask op claims [] rules)

theorem validate_eq_ok_iff :
    validate k ask clock now token op rules = .ok claims ↔
      Presents k clock now token claims ∧ ∀ r ∈ rules, Allows ask claims r := by
  rw [← traced_steady_fst, traced_fst_eq_ok_iff, passes_steady_iff]

/-- Whoever is let in with more rules is let in with fewer. -/
theorem validate_eq_ok_of_subset {rules' : List Rule} (hsub : rules ⊆ rules')
    (h : validate k ask clock now token op rules' = .ok claims) :
    validate k ask clock now token op rules = .ok claims := by
  obtain ⟨hpresents, hallows⟩ := validate_eq_ok_iff.mp h
  exact validate_eq_ok_iff.mpr ⟨hpresents, fun r hr => hallows r (hsub hr)⟩

theorem traced_fst_eq_ok_of_append {more : List Rule}
    (h : (traced k store clock now token op (rules ++ more)).1 = .ok claims) :
    (traced k store clock now token op rules).1 = .ok claims := by
  obtain ⟨hpresents, hpasses⟩ := traced_fst_eq_ok_iff.mp h
  exact traced_fst_eq_ok_iff.mpr ⟨hpresents, hpasses.of_append⟩

theorem bind_of_other (h : claims.subject = .other) (r : Rule) : r.bind claims = none := by
  unfold Rule.bind
  rw [h]
  rfl

theorem traced_of_other (r : Rule) (rules : List Rule) (h : Presents k clock now token claims)
    (hother : claims.subject = .other) :
    traced k store clock now token op (r :: rules) = (.error (.denied r.name op), []) := by
  have hbind := bind_of_other hother r
  have hdecided : Decided k store clock now token op (r :: rules) (.error (.denied r.name op))
      (probes claims ([] ++ [r])) :=
    .stopped h rfl (.nil []) (.outright hbind)
  have hprobes : probes claims ([] ++ [r]) = [] := by
    simp [probes, hbind]
  rw [traced_of_decided hdecided, hprobes]

end Authorisations

/-! ### Requests -/

theorem presents_encode {k : Token.Key} {clock now : Int} {c : Claims}
    (hchecked : Token.checkClaims clock c = .ok ()) (hnow : c.InWindow now) :
    Presents k clock now (some ("Bearer " ++ Token.encode k c)) c :=
  ⟨_, ⟨_, rfl, Token.bears_encode k c⟩, Token.decode_eq_ok_iff.mpr ⟨Token.verify_encode hchecked, hnow⟩⟩

/-- **How a request is decided.** The outcome and the probes sent are those of the first stage that fails,
for every store; for one that answers a probe the same way each time, a bearer is let in exactly when
every rule allows it, so neither the order nor the number of times a rule stands in the list matters, and
a longer list lets no one in that a shorter one keeps out. A bearer of unknown kind is let in by no rule,
whatever calls made it, and nothing is asked. -/
theorem validate_decides (k : Token.Key) (clock now : Int) (token : Option String) (op : Operation)
    (rules : List Rule) :
    (∀ store outcome asked,
      traced k store clock now token op rules = (outcome, asked) ↔
        Decided k store clock now token op rules outcome asked) ∧
    (∀ ask : Identities,
      validateIn (m := Id) k ask clock now token op rules = validate k ask clock now token op rules ∧
      (traced k (fun _ => ask) clock now token op rules).1 =
        validate k ask clock now token op rules) ∧
    (∀ ask claims,
      validate k ask clock now token op rules = .ok claims ↔
        Presents k clock now token claims ∧ ∀ r ∈ rules, Allows ask claims r) ∧
    (∀ ask claims, ∀ rules' : List Rule, (∀ r, r ∈ rules' ↔ r ∈ rules) →
      (validate k ask clock now token op rules' = .ok claims ↔
        validate k ask clock now token op rules = .ok claims)) ∧
    (∀ ask claims, ∀ rules' : List Rule, rules ⊆ rules' →
      validate k ask clock now token op rules' = .ok claims →
        validate k ask clock now token op rules = .ok claims) ∧
    (∀ store claims, ∀ more : List Rule,
      (traced k store clock now token op (rules ++ more)).1 = .ok claims →
        (traced k store clock now token op rules).1 = .ok claims) ∧
    ∀ store claims r rest, rules = r :: rest → Presents k clock now token claims →
      claims.subject = .other →
        traced k store clock now token op rules = (.error (.denied r.name op), []) := by
  refine ⟨?_, ?_, ?_, ?_, ?_, ?_, ?_⟩
  · intro store outcome asked
    exact traced_eq_iff
  · intro ask
    exact ⟨validateIn_id k ask clock now token op rules, traced_steady_fst k ask clock now token op rules⟩
  · intro ask claims
    exact validate_eq_ok_iff
  · intro ask claims rules' hsame
    constructor
    · exact validate_eq_ok_of_subset fun r hr => (hsame r).mpr hr
    · exact validate_eq_ok_of_subset fun r hr => (hsame r).mp hr
  · intro ask claims rules' hsub haccepted
    exact validate_eq_ok_of_subset hsub haccepted
  · intro store claims more haccepted
    exact traced_fst_eq_ok_of_append haccepted
  · rintro store claims r rest rfl hpresents hother
    exact traced_of_other r rest hpresents hother

def strangerClaims : Claims := { Token.briefClaims with subject := .other }

/-- A rule in the middle denies everyone. -/
def closedRules : List Rule :=
  [Rule.activeUser, Rule.denyAll "closed" ⟨"user", "u"⟩, Rule.activeUser]

/-- A store that knows everyone is asked once for a user and not at all for a stranger; without the rule in
the middle the user is let in, though the other one stands in the list twice. -/
theorem stranger_and_user_decided :
    (Presents Token.briefKey 0 9 (some ("Bearer " ++ Token.encode Token.briefKey strangerClaims))
        strangerClaims ∧
      strangerClaims.subject = .other ∧
      traced Token.briefKey (fun _ _ => .ok true) 0 9
          (some ("Bearer " ++ Token.encode Token.briefKey strangerClaims)) .read closedRules =
        (.error (.denied "active_user" .read), [])) ∧
    traced Token.briefKey (fun _ _ => .ok true) 0 9
        (some ("Bearer " ++ Token.encode Token.briefKey Token.briefClaims)) .read closedRules =
      (.error (.denied "closed" .read), (Rule.activeUser.bind Token.briefClaims).toList) ∧
    (∀ r, r ∈ [Rule.activeUser, Rule.activeUser] ↔ r ∈ [Rule.activeUser]) ∧
    [Rule.activeUser] ⊆ [Rule.activeUser, Rule.activeUser] ∧
    validate Token.briefKey (fun _ => .ok true) 0 9
        (some ("Bearer " ++ Token.encode Token.briefKey Token.briefClaims)) .read
        [Rule.activeUser, Rule.activeUser] =
      .ok Token.briefClaims := by
  have hstranger : Presents Token.briefKey 0 9
      (some ("Bearer " ++ Token.encode Token.briefKey strangerClaims)) strangerClaims :=
    presents_encode rfl ⟨by decide, by decide⟩
  have huser : Presents Token.briefKey 0 9
      (some ("Bearer " ++ Token.encode Token.briefKey Token.briefClaims)) Token.briefClaims :=
    presents_encode rfl ⟨by decide, by decide⟩
  obtain ⟨-, -, -, -, -, -, hother⟩ := validate_decides Token.briefKey 0 9
    (some ("Bearer " ++ Token.encode Token.briefKey strangerClaims)) .read closedRules
  obtain ⟨hclosed, -⟩ := validate_decides Token.briefKey 0 9
    (some ("Bearer " ++ Token.encode Token.briefKey Token.briefClaims)) .read closedRules
  obtain ⟨-, -, hok, hsame, -⟩ := validate_decides Token.briefKey 0 9
    (some ("Bearer " ++ Token.encode Token.briefKey Token.briefClaims)) .read [Rule.activeUser]
  have hpasses : Passes (fun _ _ => .ok true) Token.briefClaims [] [Rule.activeUser] :=
    .cons rfl rfl (.nil _)
  have htwice : ∀ r, r ∈ [Rule.activeUser, Rule.activeUser] ↔ r ∈ [Rule.activeUser] := by simp
  have honce := (hok (fun _ => .ok true) Token.briefClaims).mpr ⟨huser, passes_steady_iff.mp hpasses⟩
  refine ⟨⟨hstranger, rfl, ?_⟩, ?_, htwice, ?_, ?_⟩
  · exact hother _ strangerClaims _ _ rfl hstranger rfl
  · exact (hclosed _ _ _).mpr (.stopped huser rfl hpasses (.outright rfl))
  · intro r hr
    exact (htwice r).mpr hr
  · exact (hsame _ _ _ htwice).mpr honce

end CompanyRegistry.Validator
