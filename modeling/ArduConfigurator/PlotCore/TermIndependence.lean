import ArduConfigurator.PlotCore.Evaluator

/-! # Terms do not disturb each other

The plans of a graph share one store. The plan of a term and the part of the store that its
references name move alike in every graph that has the term, under all pushes that have the same
messages of those references. -/
namespace ArduConfigurator.PlotCore
open JsNumber (mapKey)
set_option autoImplicit false

variable {engine : Engine} {tables : MagFieldTables}

instance (ref : Reference) (inst : Option JsNumber) : Decidable (ref.Names inst) :=
  inferInstanceAs (Decidable (_ ∨ _))

def Push.Named (push : Push) (refs : List Reference) : Prop :=
  ∃ ref ∈ refs, ref.message = push.messageName ∧ ref.Names push.inst

instance (push : Push) (refs : List Reference) : Decidable (push.Named refs) :=
  inferInstanceAs (Decidable (∃ ref ∈ refs, _))

def Event.seenBy (refs : List Reference) : Event → Bool
  | .push p => p.Named refs
  | _ => true

/-! ## What a plan requires -/

structure Gathered (r : Requirements) (refs : List Reference) : Prop where
  types_nodup : r.types.Nodup
  mem_types : ∀ name, name ∈ r.types ↔ ∃ ref ∈ refs, ref.message = name
  mem_bareTypes : ∀ name, name ∈ r.bareTypes ↔ ∃ ref ∈ refs, ref.message = name ∧ ref.inst = none
  mem_filter : ∀ name key, (∃ keys, r.instanceFilter.get name = some keys ∧ key ∈ keys) ↔
    ∃ ref ∈ refs, ref.message = name ∧ ref.inst.map mapKey = some key
  required : ∀ key req, r.required.get key = some req →
    ∃ ref ∈ refs, ref.message = req.1 ∧ ref.inst = req.2

variable {refs : List Reference}

theorem exists_mem_concat {p : Reference → Prop} {ref : Reference} :
    (∃ r ∈ refs ++ [ref], p r) ↔ (∃ r ∈ refs, p r) ∨ p ref := by
  simp only [List.mem_append, List.mem_singleton, or_and_right, exists_or, exists_eq_left]

variable {r : Requirements}

theorem Gathered.add (h : Gathered r refs) (ref : Reference) :
    Gathered (r.add ref) (refs ++ [ref]) where
  types_nodup := by
    unfold Requirements.add
    dsimp only
    split
    · exact h.types_nodup
    · next hmem => exact h.types_nodup.append (by simp) (by simpa using hmem)
  mem_types name := by
    rw [exists_mem_concat, ← h.mem_types]
    unfold Requirements.add
    dsimp only
    split
    · next hmem => exact ⟨.inl, fun hor => hor.elim id fun heq => heq ▸ hmem⟩
    · simp only [List.mem_append, List.mem_singleton, eq_comm]
  mem_bareTypes name := by
    rw [exists_mem_concat, ← h.mem_bareTypes]
    unfold Requirements.add
    dsimp only
    split
    · next hnone => simp [hnone, or_comm, eq_comm]
    · next hsome => simp [hsome]
  mem_filter name key := by
    rw [exists_mem_concat, ← h.mem_filter]
    unfold Requirements.add
    dsimp only
    cases hinst : ref.inst with
    | none => simp
    | some i =>
      dsimp only
      rw [JsMap.get_set]
      by_cases hname : name = ref.message
      · subst hname
        cases hfilter : r.instanceFilter.get ref.message <;> simp [eq_comm]
      · simp [hname, Ne.symm hname]
  required key req hreq := by
    rw [exists_mem_concat]
    unfold Requirements.add at hreq
    dsimp only at hreq
    rw [JsMap.get_set] at hreq
    split at hreq
    · cases hreq
      exact .inr ⟨rfl, rfl⟩
    · exact .inl (h.required key req hreq)

theorem gathered_foldl {before : List Reference} (h : Gathered r before) (refs : List Reference) :
    Gathered (refs.foldl Requirements.add r) (before ++ refs) := by
  induction refs generalizing r before with
  | nil => rwa [List.append_nil]
  | cons ref refs ih =>
    rw [List.append_cons]
    exact ih (h.add ref)

theorem gathered (refs : List Reference) :
    Gathered (refs.foldl Requirements.add Requirements.none) refs :=
  have hnone : Gathered Requirements.none [] :=
    ⟨List.nodup_nil, by simp [Requirements.none], by simp [Requirements.none],
      by simp [Requirements.none], by simp [Requirements.none]⟩
  gathered_foldl hnone refs

def Plan.Serves (plan : Plan) (engine : Engine) (tables : MagFieldTables) (term : Term) : Prop :=
  plan.toPlanSetup = (makePlan engine tables term).toPlanSetup

theorem mem_types {plan : Plan} {term : Term} (h : plan.Serves engine tables term) {name : Text} :
    name ∈ plan.types ↔ ∃ ref ∈ termReferences term, ref.message = name := by
  rw [show plan.types = _ from congrArg PlanSetup.types h]
  exact (gathered (termReferences term)).mem_types name

theorem types_nodup {plan : Plan} {term : Term} (h : plan.Serves engine tables term) :
    plan.types.Nodup := by
  rw [show plan.types = _ from congrArg PlanSetup.types h]
  exact (gathered (termReferences term)).types_nodup

theorem ignores_of_not_named {plan : Plan} {term : Term} (h : plan.Serves engine tables term)
    {push : Push} (hmem : push.messageName ∈ plan.types)
    (hnamed : ¬push.Named (termReferences term)) : plan.ignores push = true := by
  have hgathered := gathered (termReferences term)
  obtain ⟨ref, href, hmessage⟩ := (mem_types h).mp hmem
  -- No reference to the type is bare, or it would name the message.
  have hbare : push.messageName ∉
      ((termReferences term).foldl Requirements.add Requirements.none).bareTypes := by
    rw [hgathered.mem_bareTypes]
    rintro ⟨bare, hbare, hname, hnone⟩
    exact hnamed ⟨bare, hbare, hname, .inl hnone⟩
  obtain ⟨i, hi⟩ : ∃ i, ref.inst = some i :=
    Option.ne_none_iff_exists'.mp fun hnone => hnamed ⟨ref, href, hmessage, .inl hnone⟩
  obtain ⟨keys, hkeys, _⟩ := (hgathered.mem_filter push.messageName i.mapKey).mpr
    ⟨ref, href, hmessage, by rw [hi]; rfl⟩
  have hfilter : plan.instanceFilter.get push.messageName = some keys := by
    rw [show plan.instanceFilter = _ from congrArg PlanSetup.instanceFilter h]
    simp [makePlan, hkeys, hbare]
  unfold Plan.ignores
  rw [hfilter]
  cases hinst : push.inst with
  | none => rfl
  | some j =>
    have hkey : j.mapKey ∉ keys := by
      intro hkey
      obtain ⟨other, hother, hname, hsame⟩ := (hgathered.mem_filter push.messageName j.mapKey).mp
        ⟨keys, hkeys, hkey⟩
      exact hnamed ⟨other, hother, hname, .inr (by rw [hsame, hinst]; rfl)⟩
    simpa using hkey

/-! ## A plan reads what its references name -/

def StoresAgree (refs : List Reference) (store store' : LatestStore) : Prop :=
  ∀ ref ∈ refs, ∀ inst, ref.Names inst → store.get ref.message inst = store'.get ref.message inst

variable {store store' : LatestStore} {term : Term}

theorem StoresAgree.refl (refs : List Reference) (store : LatestStore) :
    StoresAgree refs store store := fun _ _ _ _ => rfl

theorem StoresAgree.put (h : StoresAgree refs store store') (p : Push) :
    StoresAgree refs (store.put p.messageName p.record p.timeSeconds p.inst)
      (store'.put p.messageName p.record p.timeSeconds p.inst) := by
  intro ref href inst hnames
  by_cases hname : ref.message = p.messageName
  · have hget := h ref href inst hnames
    rw [hname] at hget ⊢
    exact LatestStore.get_put_congr hget _ _ _
  · rw [LatestStore.get_put_ne hname, LatestStore.get_put_ne hname]
    exact h ref href inst hnames

theorem StoresAgree.put_left (h : StoresAgree refs store store') {p : Push}
    (hnamed : ¬p.Named refs) :
    StoresAgree refs (store.put p.messageName p.record p.timeSeconds p.inst) store' := by
  intro ref href inst hnames
  rw [← h ref href inst hnames]
  by_cases hname : ref.message = p.messageName
  · have hnot : ¬ref.Names p.inst := fun hp => hnamed ⟨ref, href, hname, hp⟩
    obtain ⟨i, hi⟩ : ∃ i, ref.inst = some i :=
      Option.ne_none_iff_exists'.mp fun hnone => hnot (.inl hnone)
    have hsame : ref.inst.map mapKey = inst.map mapKey :=
      hnames.resolve_left (by rw [hi]; exact Option.some_ne_none i)
    rw [hi] at hsame
    obtain ⟨j, rfl, hj⟩ := Option.map_eq_some_iff.mp hsame.symm
    rw [hname]
    refine LatestStore.get_put_instance (fun hp => hnot (.inr ?_)) _ _ _ _
    rw [hi, hp, hj]
    rfl
  · exact LatestStore.get_put_ne hname _ _ _ _ _

theorem planEnv_agree (h : StoresAgree refs store store') (p : Push) :
    ∀ ref ∈ refs, AgreesOn (planEnv store p) (planEnv store' p) ref := by
  intro ref href
  refine ⟨fun inst hnames => ?_, fun inst hnames => ?_⟩
  · exact congrArg (Option.map Slot.record) (h ref href inst hnames)
  · exact congrArg (Option.map Slot.time) (h ref href inst hnames)

variable {env env' : EvalEnv}

theorem agreesOn_collected (h : ∀ ref ∈ termReferences term, AgreesOn env env' ref) :
    (∀ ref ∈ collectReferences term.ast, AgreesOn env env' ref) ∧
      ∀ condition ∈ term.condition, ∀ ref ∈ collectReferences condition,
        AgreesOn env env' ref := by
  unfold termReferences at h
  cases hcondition : term.condition with
  | none =>
    rw [hcondition] at h
    exact ⟨h, by simp⟩
  | some condition =>
    rw [hcondition] at h
    have hnamed := term.condition_named condition hcondition
    obtain ⟨hkeys, hkept⟩ :=
      key_addReferences (collectReferences condition) (collectReferences term.ast)
    refine ⟨fun ref href => h ref (hkept ref href), fun node hnode ref href => ?_⟩
    cases hnode
    obtain ⟨seen, hseen, hkey⟩ := hkeys ref href
    have hwell : seen.WellFormed := by
      rcases mem_addReferences hseen with hmem | hmem
      · exact collectReferences_wellFormed term.ast_named seen hmem
      · exact collectReferences_wellFormed hnamed seen hmem
    obtain ⟨hmessage, hinst⟩ := hwell.same (collectReferences_wellFormed hnamed ref href) hkey
    exact (h seen hseen).of_same hmessage hinst

variable {plan : Plan}

theorem point_agree (hserves : plan.Serves engine tables term) (hparam : env.param = env'.param)
    (htime : env.time = env'.time) (h : ∀ ref ∈ termReferences term, AgreesOn env env' ref) :
    plan.point env = plan.point env' := by
  obtain ⟨hast, hcondition⟩ := agreesOn_collected h
  have hvalue : plan.value env = plan.value env' := by
    rw [show plan.value = _ from congrArg PlanSetup.value hserves]
    exact evaluate_agree engine tables term.ast_named hparam htime hast
  have hgate : plan.condition = term.condition.map (evaluate engine tables) :=
    congrArg PlanSetup.condition hserves
  unfold Plan.point
  rw [hvalue, hgate]
  cases hnode : term.condition with
  | none => rfl
  | some condition =>
    have hsame := evaluate_agree engine tables (term.condition_named condition hnode) hparam htime
      (hcondition condition hnode)
    simp only [Option.map_some, hsame]

theorem runPlan_agree (hserves : plan.Serves engine tables term)
    (h : StoresAgree (termReferences term) store store') (p : Push) :
    runPlan plan store p = runPlan plan store' p := by
  have hget : ∀ req ∈ plan.required, store.get req.1 req.2 = store'.get req.1 req.2 := by
    intro req hreq
    rw [show plan.required = _ from congrArg PlanSetup.required hserves] at hreq
    obtain ⟨⟨key, _⟩, hentry, rfl⟩ := List.mem_map.mp hreq
    obtain ⟨ref, href, hmessage, hinst⟩ := (gathered (termReferences term)).required key _
      (JsMap.mem_entries_iff.mp hentry)
    rw [← hmessage, ← hinst, h ref href ref.inst (.inr rfl)]
  have hrequired : (plan.required.any fun req => (store.get req.1 req.2).isNone) =
      plan.required.any fun req => (store'.get req.1 req.2).isNone := by
    rw [Bool.eq_iff_iff, List.any_eq_true, List.any_eq_true]
    exact exists_congr fun req => and_congr_right fun hreq => by rw [hget req hreq]
  have hpoint : plan.point (planEnv store p) = plan.point (planEnv store' p) :=
    point_agree hserves rfl rfl (planEnv_agree h p)
  simp only [runPlan, hrequired, hpoint]

/-! ## A term by itself -/

structure TermView where
  store : LatestStore
  plan : Plan

namespace TermView

def initial (engine : Engine) (tables : MagFieldTables) (term : Term) : TermView :=
  ⟨.empty, makePlan engine tables term⟩

def step (refs : List Reference) (view : TermView) : Event → TermView
  | .push p =>
    if view.plan.unsupported = none ∧ p.Named refs then
      let store := view.store.put p.messageName p.record p.timeSeconds p.inst
      ⟨store, runPlan view.plan store p⟩
    else view
  | .trimBefore timeSeconds => ⟨view.store, view.plan.trimBefore timeSeconds⟩
  | .reset => ⟨.empty, view.plan.reset⟩

def play (refs : List Reference) (view : TermView) (events : List Event) : TermView :=
  events.foldl (step refs) view

theorem play_filter (refs : List Reference) (view : TermView) (events : List Event) :
    view.play refs (events.filter fun event => event.seenBy refs) = view.play refs events := by
  induction events generalizing view with
  | nil => rfl
  | cons event events ih =>
    by_cases hseen : event.seenBy refs = true
    · rw [List.filter_cons_of_pos hseen]
      exact ih _
    · rw [List.filter_cons_of_neg hseen, ih]
      cases event with
      | push p =>
        have hstep : step refs view (.push p) = view :=
          if_neg fun h => hseen (decide_eq_true h.2)
        exact (congrArg (fun view => play refs view events) hstep).symm
      | trimBefore timeSeconds => exact absurd rfl hseen
      | reset => exact absurd rfl hseen

end TermView

/-! ## The plans of a graph -/

def Plan.Listens (plan : Plan) (type : Text) : Prop :=
  plan.unsupported = none ∧ type ∈ plan.types

instance (type : Text) (plan : Plan) : Decidable (plan.Listens type) :=
  inferInstanceAs (Decidable (_ ∧ _))

def listed (byType : JsMap Text (List ℕ)) (type : Text) : List ℕ := (byType.get type).getD []

theorem listed_addToType (i : ℕ) (byType : JsMap Text (List ℕ)) (type other : Text) :
    listed (addToType i byType type) other =
      if other = type then listed byType other ++ [i] else listed byType other := by
  unfold listed addToType
  rw [JsMap.get_set]
  split
  · next heq =>
    rw [heq]
    rfl
  · rfl

theorem listed_addToTypes (i : ℕ) {types : List Text} (hnodup : types.Nodup)
    (byType : JsMap Text (List ℕ)) (type : Text) :
    listed (types.foldl (addToType i) byType) type =
      if type ∈ types then listed byType type ++ [i] else listed byType type := by
  induction types generalizing byType with
  | nil => simp
  | cons head types ih =>
    obtain ⟨hhead, htypes⟩ := List.nodup_cons.mp hnodup
    rw [List.foldl_cons, ih htypes, listed_addToType]
    by_cases heq : type = head
    · subst heq
      simp [hhead]
    · simp [heq]

theorem listed_addPlan (hnodup : plan.types.Nodup) (i : ℕ) (byType : JsMap Text (List ℕ))
    (type : Text) :
    listed (addPlan byType (plan, i)) type =
      if plan.Listens type then listed byType type ++ [i] else listed byType type := by
  unfold addPlan Plan.Listens
  by_cases hsupported : plan.unsupported = none
  · simp [hsupported, listed_addToTypes i hnodup]
  · simp [hsupported, Option.isSome_iff_ne_none]

theorem listed_foldl {entries : List (Plan × ℕ)} (hnodup : ∀ entry ∈ entries, entry.1.types.Nodup)
    (byType : JsMap Text (List ℕ)) (type : Text) :
    listed (entries.foldl addPlan byType) type =
      listed byType type ++ (entries.filter fun entry => entry.1.Listens type).map Prod.snd := by
  induction entries generalizing byType with
  | nil => simp
  | cons entry entries ih =>
    obtain ⟨hentry, hentries⟩ := List.forall_mem_cons.mp hnodup
    rw [List.foldl_cons, ih hentries, listed_addPlan hentry]
    by_cases hlistens : entry.1.Listens type
    · simp [hlistens]
    · simp [hlistens]

structure Indexed (g : GraphEvaluator) : Prop where
  nodup : ∀ type, (listed g.byType type).Nodup
  mem : ∀ type i plan, g.plans[i]? = some plan → (i ∈ listed g.byType type ↔ plan.Listens type)

theorem indexed_create (engine : Engine) (tables : MagFieldTables) (terms : List Term) :
    Indexed (createGraphEvaluator engine tables terms) := by
  have htypes : ∀ entry ∈ (terms.map (makePlan engine tables)).zipIdx, entry.1.types.Nodup := by
    intro entry hentry
    obtain ⟨term, _, hplan⟩ := List.mem_map.mp (List.fst_mem_of_mem_zipIdx hentry)
    have hserves : entry.1.Serves engine tables term := by
      rw [← hplan]
      rfl
    exact types_nodup hserves
  have hlisted (type : Text) := listed_foldl htypes .empty type
  refine ⟨fun type => ?_, fun type i plan hplan => ?_⟩
  · have hsublist := (List.filter_sublist
      (l := (terms.map (makePlan engine tables)).zipIdx)
      (p := fun entry => entry.1.Listens type)).map Prod.snd
    rw [List.zipIdx_map_snd] at hsublist
    rw [createGraphEvaluator, hlisted type]
    exact hsublist.nodup List.nodup_range'
  · rw [createGraphEvaluator] at hplan
    rw [createGraphEvaluator, hlisted type]
    dsimp only at hplan ⊢
    constructor
    · intro hmem
      rw [show listed .empty type = [] from rfl, List.nil_append] at hmem
      obtain ⟨entry, hentry, rfl⟩ := List.mem_map.mp hmem
      obtain ⟨hzip, hlistens⟩ := List.mem_filter.mp hentry
      rw [List.mem_zipIdx_iff_getElem?, hplan] at hzip
      rw [Option.some.inj hzip]
      exact of_decide_eq_true hlistens
    · intro hlistens
      refine List.mem_append_right _ (List.mem_map.mpr ⟨(plan, i), List.mem_filter.mpr ⟨?_, ?_⟩, rfl⟩)
      · exact List.mem_zipIdx_iff_getElem?.mpr hplan
      · exact decide_eq_true hlistens

theorem getElem?_foldl_modify {list : List ℕ} (hnodup : list.Nodup) (f : Plan → Plan)
    (plans : List Plan) (j : ℕ) :
    (list.foldl (fun plans i => plans.modify i f) plans)[j]? =
      plans[j]?.map fun plan => if j ∈ list then f plan else plan := by
  induction list generalizing plans with
  | nil => simp
  | cons i list ih =>
    obtain ⟨hi, hlist⟩ := List.nodup_cons.mp hnodup
    rw [List.foldl_cons, ih hlist, List.getElem?_modify]
    cases plans[j]? with
    | none => simp
    | some plan =>
      by_cases hij : i = j
      · subst hij
        simp [hi]
      · simp [hij, Ne.symm hij]

/-- The graph carries the term's view as its plan `i`. -/
structure Carries (engine : Engine) (tables : MagFieldTables) (term : Term) (g : GraphEvaluator)
    (i : ℕ) (view : TermView) : Prop where
  indexed : Indexed g
  plan : g.plans[i]? = some view.plan
  serves : view.plan.Serves engine tables term
  stores : view.plan.unsupported = none →
    StoresAgree (termReferences term) g.store view.store

variable {i : ℕ} {terms : List Term}

theorem carries_create (engine : Engine) (tables : MagFieldTables) (h : terms[i]? = some term) :
    Carries engine tables term (createGraphEvaluator engine tables terms) i
      (.initial engine tables term) where
  indexed := indexed_create engine tables terms
  plan := by
    rw [createGraphEvaluator, List.getElem?_map, h]
    rfl
  serves := rfl
  stores _ := .refl _ _

theorem setup_runPlan (plan : Plan) (store : LatestStore) (p : Push) :
    (runPlan plan store p).toPlanSetup = plan.toPlanSetup := by
  unfold runPlan
  split
  · rfl
  · split
    · rfl
    · split <;> rfl

variable {g : GraphEvaluator}

theorem Indexed.of_setups (h : Indexed g) {plans : List Plan} (store : LatestStore)
    (hplans : ∀ (j : ℕ) (plan' : Plan), plans[j]? = some plan' → ∃ plan, g.plans[j]? = some plan ∧ plan'.toPlanSetup = plan.toPlanSetup) :
    Indexed { g with store, plans } := by
  refine ⟨h.nodup, fun type j plan' hplan' => ?_⟩
  obtain ⟨plan, hplan, hsetup⟩ := hplans j plan' hplan'
  have hiff := h.mem type j plan hplan
  unfold Plan.Listens at hiff ⊢
  rw [hsetup]
  exact hiff

variable {view : TermView}

theorem Carries.map (h : Carries engine tables term g i view) (f : Plan → Plan)
    (hf : ∀ plan, (f plan).toPlanSetup = plan.toPlanSetup)
    (hstore : view.plan.unsupported = none → StoresAgree (termReferences term) store store') :
    Carries engine tables term { g with store, plans := g.plans.map f } i
      ⟨store', f view.plan⟩ where
  indexed := by
    refine h.indexed.of_setups store fun j plan' hplan' => ?_
    rw [List.getElem?_map] at hplan'
    obtain ⟨plan, hplan, rfl⟩ := Option.map_eq_some_iff.mp hplan'
    exact ⟨plan, hplan, hf plan⟩
  plan := by
    dsimp only
    rw [List.getElem?_map, h.plan]
    rfl
  serves := (hf _).trans h.serves
  stores hsupported := hstore (by rw [← hsupported, hf])

theorem Carries.push (h : Carries engine tables term g i view) (p : Push) :
    Carries engine tables term (g.push p) i (view.step (termReferences term) (.push p)) := by
  have hlisted := h.indexed.mem p.messageName i view.plan h.plan
  unfold Plan.Listens at hlisted
  unfold GraphEvaluator.push TermView.step
  cases hget : g.byType.get p.messageName with
  | none =>
    -- No plan listens, and so the references of a supported term do not name the message.
    have hnot : ¬(view.plan.unsupported = none ∧ p.Named (termReferences term)) := by
      rintro ⟨hsupported, ref, href, hmessage, _⟩
      have hmem := hlisted.mpr ⟨hsupported, (mem_types h.serves).mpr ⟨ref, href, hmessage⟩⟩
      rw [listed, hget] at hmem
      cases hmem
    dsimp only
    rw [if_neg hnot]
    exact h
  | some list =>
    have hlist : listed g.byType p.messageName = list := by rw [listed, hget]; rfl
    have hnodup : list.Nodup := hlist ▸ h.indexed.nodup p.messageName
    rw [hlist] at hlisted
    dsimp only
    generalize hstore : g.store.put p.messageName p.record p.timeSeconds p.inst = store
    have hplan (j : ℕ) := getElem?_foldl_modify hnodup (fun plan => runPlan plan store p) g.plans j
    have hindexed : Indexed { g with
        store
        plans := list.foldl (fun plans i => plans.modify i fun plan => runPlan plan store p)
          g.plans } := by
      refine h.indexed.of_setups store fun j plan' hplan' => ?_
      rw [hplan j] at hplan'
      obtain ⟨plan, hj, rfl⟩ := Option.map_eq_some_iff.mp hplan'
      refine ⟨plan, hj, ?_⟩
      split
      · exact setup_runPlan plan store p
      · rfl
    split
    · next hnamed =>
      obtain ⟨hsupported, hnamed⟩ := hnamed
      have hagree := (h.stores hsupported).put p
      rw [hstore] at hagree
      have hmem : i ∈ list := hlisted.mpr ⟨hsupported, by
        obtain ⟨ref, href, hmessage, _⟩ := hnamed
        exact (mem_types h.serves).mpr ⟨ref, href, hmessage⟩⟩
      refine ⟨hindexed, ?_, (setup_runPlan _ _ _).trans h.serves, fun _ => hagree⟩
      dsimp only
      rw [hplan i, h.plan, Option.map_some, if_pos hmem, runPlan_agree h.serves hagree p]
    · next hnot =>
      have hagree (hsupported : view.plan.unsupported = none) :
          StoresAgree (termReferences term) store view.store := by
        rw [← hstore]
        exact (h.stores hsupported).put_left fun hnamed => hnot ⟨hsupported, hnamed⟩
      refine ⟨hindexed, ?_, h.serves, hagree⟩
      dsimp only
      rw [hplan i, h.plan, Option.map_some]
      split
      · next hmem =>
        obtain ⟨hsupported, htype⟩ := hlisted.mp hmem
        have hignores := ignores_of_not_named h.serves htype fun hnamed => hnot ⟨hsupported, hnamed⟩
        rw [runPlan, if_pos hignores]
      · rfl

theorem Carries.step (h : Carries engine tables term g i view) (event : Event) :
    Carries engine tables term (g.step event) i (view.step (termReferences term) event) := by
  cases event with
  | push p => exact h.push p
  | trimBefore timeSeconds => exact h.map (Plan.trimBefore timeSeconds) (fun _ => rfl) h.stores
  | reset => exact h.map Plan.reset (fun _ => rfl) fun _ => .refl _ _

theorem Carries.play (h : Carries engine tables term g i view) (events : List Event) :
    Carries engine tables term (g.play events) i (view.play (termReferences term) events) := by
  induction events generalizing g view with
  | nil => exact h
  | cons event events ih => exact ih (h.step event)

theorem series_play (h : terms[i]? = some term) (events : List Event) :
    ((createGraphEvaluator engine tables terms).play events).series[i]? =
      some (planSeries ((TermView.initial engine tables term).play (termReferences term)
        events).plan) := by
  have hcarries := (carries_create engine tables h).play events
  rw [GraphEvaluator.series, List.getElem?_map, hcarries.plan]
  rfl

/-- The series of a term in a graph is that of an evaluator for the term alone; evaluating an
expression reads only what its references name; and runs that agree on the messages named by the
term's references give the same points, in whatever graphs the term stands. -/
theorem term_independence (engine : Engine) (tables : MagFieldTables) :
    (∀ (terms : List Term) (i : ℕ) (term : Term) (events : List Event), terms[i]? = some term →
      ∃ series, ((createGraphEvaluator engine tables terms).play events).series[i]? = some series ∧
        ((createTermEvaluator engine tables term).play events).termSeries = some series) ∧
    (∀ (ast : Node) (env env' : EvalEnv), ast.Named → env.param = env'.param →
      env.time = env'.time → (∀ ref ∈ collectReferences ast, AgreesOn env env' ref) →
        evaluate engine tables ast env = evaluate engine tables ast env') ∧
    ∀ (terms terms' : List Term) (i j : ℕ) (term : Term) (events events' : List Event),
      terms[i]? = some term → terms'[j]? = some term →
      events.filter (Event.seenBy (termReferences term)) =
        events'.filter (Event.seenBy (termReferences term)) →
      ((createGraphEvaluator engine tables terms).play events).series[i]? =
        ((createGraphEvaluator engine tables terms').play events').series[j]? := by
  refine ⟨fun terms i term events hterm => ?_, fun ast env env' hnamed hparam htime hrefs => ?_,
    fun terms terms' i j term events events' hterm hterm' hsame => ?_⟩
  · refine ⟨_, series_play hterm events, ?_⟩
    rw [GraphEvaluator.termSeries, List.head?_eq_getElem?]
    exact series_play rfl events
  · exact evaluate_agree engine tables hnamed hparam htime hrefs
  · rw [series_play hterm, series_play hterm', ← TermView.play_filter _ _ events, hsame,
      TermView.play_filter]

def bareEngine : Engine :=
  ⟨fun x _ => x, id, id, id, id, id, id, id, id, id, id, id, id, id, id, fun x _ => x,
    fun _ => 0, fun _ _ => none, fun _ => none⟩

def noTables : MagFieldTables := ⟨[], [], []⟩

/-- `MSG.Field`, without suffixes. -/
def fieldTerm (message field : Text) (h : isIdentifier message = true) : Term :=
  ⟨message ++ units "." ++ field, message ++ units "." ++ field, .first,
    .attr (.name message) field, none, h, named_of_no_condition⟩

/-- A message whose only field is `Spd`. -/
def speedMessage (name : Text) (time speed : JsNumber) : Event :=
  .push ⟨name, ⟨0, fun field => if field = units "Spd" then .num speed else .undefined⟩, time,
    none, fun _ => none⟩

theorem speed_independent :
    (∃ series,
      ((createGraphEvaluator bareEngine noTables
        [fieldTerm (units "GPS") (units "Spd") rfl, fieldTerm (units "ATT") (units "Spd") rfl]).play
        [speedMessage (units "GPS") 1 5, speedMessage (units "ATT") 2 7]).series[0]? = some series ∧
      ((createTermEvaluator bareEngine noTables (fieldTerm (units "GPS") (units "Spd") rfl)).play
        [speedMessage (units "GPS") 1 5, speedMessage (units "ATT") 2 7]).termSeries =
          some series) ∧
    ((createGraphEvaluator bareEngine noTables
        [fieldTerm (units "GPS") (units "Spd") rfl, fieldTerm (units "ATT") (units "Spd") rfl]).play
        [speedMessage (units "GPS") 1 5, speedMessage (units "ATT") 2 7]).series[0]? =
      ((createGraphEvaluator bareEngine noTables [fieldTerm (units "GPS") (units "Spd") rfl]).play
        [speedMessage (units "ATT") 0 9, speedMessage (units "GPS") 1 5]).series[0]? :=
  ⟨(term_independence bareEngine noTables).1 _ 0 _ _ rfl,
    (term_independence bareEngine noTables).2.2 _ _ 0 0 _ _ _ rfl rfl rfl⟩

end ArduConfigurator.PlotCore
