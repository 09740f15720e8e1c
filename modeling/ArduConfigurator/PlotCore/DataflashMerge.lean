import ArduConfigurator.Lib.Interleave
import ArduConfigurator.PlotCore.TermIndependence

/-! # Terms over a DataFlash log

The second half of `evaluator.ts`: instances and times of the records of a log, and the merge of the
record lists of the referenced types. A cursor into a list is what is left of the list. -/
namespace ArduConfigurator.PlotCore.Dataflash
open JsNumber (signed)
open DecimalText (readLiteral)
set_option autoImplicit false

structure DataflashFormatLike where
  type : JsNumber
  name : Text
  columns : List Text

structure DataflashLogLike where
  messagesByType : JsMap Text (List MessageRecord)
  formats : JsMap Text DataflashFormatLike

def DataflashLogLike.records (log : DataflashLogLike) (message : Text) : List MessageRecord :=
  (log.messagesByType.get message).getD []

def DataflashLogLike.columns (log : DataflashLogLike) (message : Text) : List Text :=
  ((log.formats.get message).map DataflashFormatLike.columns).getD []

/-! ## Instances and times -/

def INSTANCE_FALLBACK_COLUMNS : List Text :=
  [units "I", units "Instance", units "C", units "IMU", units "Inst"]

def nameByType (log : DataflashLogLike) : JsMap JsNumber DataflashFormatLike :=
  log.formats.values.foldl (fun map format => map.set format.type.mapKey format) .empty

/-- The instance column that a FMTU record declares, `none` in the inner place where it has none. -/
def declaredColumn (log : DataflashLogLike) (fmtu : MessageRecord) : Option (Text × Option Text) :=
  match fmtu.member (units "FmtType"), fmtu.member (units "UnitIds") with
  | .num type, .str unitIds =>
    ((nameByType log).get type.mapKey).map fun format =>
      (format.name, (unitIds.idxOf? 0x23).bind (format.columns[·]?))
  | _, _ => none

def declaredColumns (log : DataflashLogLike) : JsMap Text (Option Text) :=
  ((log.records (units "FMTU")).filterMap (declaredColumn log)).foldl
    (fun cache entry => cache.set entry.1 entry.2) .empty

def dataflashInstanceColumn (log : DataflashLogLike) (message : Text) : Option Text :=
  match (declaredColumns log).get message with
  | some known => known
  | none => INSTANCE_FALLBACK_COLUMNS.find? fun name => (log.columns message).contains name

def instanceOf (record : MessageRecord) (column : Option Text) : Option JsNumber :=
  match column.map record.member with
  | some (.num value) => some value
  | some (.str value) =>
    if trim value = [] then none
    else if (readLiteral (trim value)).isFinite then some (readLiteral (trim value)) else none
  | _ => none

def recordTime (record : MessageRecord) : Option JsNumber :=
  match record.member (units "TimeUS") with
  | .num us => some (us * 1e-6)
  | _ =>
    match record.member (units "TimeMS") with
    | .num ms => some (ms * 1e-3)
    | _ => none

def dataflashParams (log : DataflashLogLike) : Text → Option JsNumber :=
  let params := (log.records (units "PARM")).foldl (fun (params : JsMap Text JsNumber) parm =>
    match parm.member (units "Name"), parm.member (units "Value") with
    | .str name, .num value => params.set name value
    | _, _ => params) .empty
  params.get

/-! ## The merge -/

/-- A type of message with the records that are left of it and the time of the first of them. -/
structure TypeCursor where
  type : Text
  column : Option Text
  rest : List MessageRecord
  head : JsNumber

def TypeCursor.advance (c : TypeCursor) : TypeCursor :=
  let rest := c.rest.dropWhile fun record => (recordTime record).isNone
  { c with rest, head := (rest.head?.bind recordTime).getD (.infinite false) }

def better (best : Option ℕ × JsNumber) (entry : TypeCursor × ℕ) : Option ℕ × JsNumber :=
  if entry.1.head.lt best.2 then (some entry.2, entry.1.head) else best

def bestOf (cursors : List TypeCursor) : Option ℕ × JsNumber :=
  cursors.zipIdx.foldl better (none, .infinite false)

def mergeTurn (param : Text → Option JsNumber) (cursors : List TypeCursor) :
    Option (Push × List TypeCursor) :=
  let (best, bestTime) := bestOf cursors
  best.bind fun i => (cursors[i]?).bind fun c => c.rest.head?.map fun record =>
    (⟨c.type, record, bestTime, instanceOf record c.column, param⟩,
      cursors.modify i fun c => { c with rest := c.rest.tail }.advance)

def mergeLoop (param : Text → Option JsNumber) : ℕ → List TypeCursor → List Push
  | 0, _ => []
  | turns + 1, cursors =>
    match mergeTurn param cursors with
    | none => []
    | some (push, cursors) => push :: mergeLoop param turns cursors

def cursorOf (log : DataflashLogLike) (type : Text) : TypeCursor :=
  TypeCursor.advance ⟨type, dataflashInstanceColumn log type, log.records type, .infinite false⟩

def mergedPushes (log : DataflashLogLike) (types : List Text) (param : Text → Option JsNumber) :
    List Push :=
  let cursors := types.map (cursorOf log)
  mergeLoop param ((cursors.map fun c => c.rest.length).sum + 1) cursors

/-- Evaluate terms over a parsed log; without `param` the log's own parameters are looked up. -/
def evaluateOnDataflash (engine : Engine) (tables : MagFieldTables) (log : DataflashLogLike)
    (terms : List Term) (param : Option (Text → Option JsNumber)) : List Series :=
  let evaluator := createGraphEvaluator engine tables terms
  let pushes := mergedPushes log evaluator.messageTypes (param.getD (dataflashParams log))
  (pushes.foldl GraphEvaluator.push evaluator).series


/-! ## Moments

A finite time as a rational; every other one comes last. -/

def moment : JsNumber → WithTop ℚ
  | .finite negative magnitude => (signed negative magnitude : ℚ)
  | _ => ⊤

variable {x : JsNumber}

theorem moment_of_isFinite (h : x.isFinite = true) : moment x < ⊤ := by
  cases x with
  | finite negative magnitude => exact WithTop.coe_lt_top _
  | nan => cases h
  | infinite negative => cases h

variable {y : JsNumber}

theorem le_iff_moment (hx : x.isFinite = true) (hy : y.isFinite = true) :
    x.le y = true ↔ moment x ≤ moment y := by
  cases x with
  | finite n q =>
    cases y with
    | finite m r =>
      rw [JsNumber.le, decide_eq_true_iff, moment, moment, WithTop.coe_le_coe]
    | nan => cases hy
    | infinite negative => cases hy
  | nan => cases hx
  | infinite negative => cases hx

theorem equal_iff_moment (hx : x.isFinite = true) (hy : y.isFinite = true) :
    x.equal y = true ↔ moment x = moment y := by
  rw [JsNumber.equal, Bool.and_eq_true, le_iff_moment hx hy, le_iff_moment hy hx]
  exact ⟨fun h => le_antisymm h.1 h.2, fun h => ⟨le_of_eq h, le_of_eq h.symm⟩⟩

theorem lt_iff_moment (hx : x.isFinite = true ∨ x = .infinite false)
    (hy : y.isFinite = true ∨ y = .infinite false) :
    x.lt y = true ↔ moment x < moment y := by
  obtain hx | rfl := hx
  · obtain hy | rfl := hy
    · rw [JsNumber.lt, Bool.and_eq_true, Bool.not_eq_true', Bool.eq_false_iff, ne_eq,
        le_iff_moment hx hy, le_iff_moment hy hx, lt_iff_le_not_ge]
    · refine iff_of_true ?_ (moment_of_isFinite hx)
      cases x with
      | finite n q => rfl
      | nan => cases hx
      | infinite negative => cases hx
  · refine iff_of_false ?_ (not_lt_of_ge le_top)
    obtain hy | rfl := hy
    · cases y with
      | finite m r => exact Bool.false_ne_true
      | nan => cases hy
      | infinite negative => cases hy
    · exact Bool.false_ne_true

/-! ## The earliest list -/

/-- Of the cursors that were looked at, the first with the least time; none when all are done. -/
inductive Earliest : List TypeCursor → Option ℕ × JsNumber → Prop
  | done {cursors : List TypeCursor} (h : ∀ c ∈ cursors, c.head = .infinite false) :
      Earliest cursors (none, .infinite false)
  | found (front : List TypeCursor) (c : TypeCursor) (back : List TypeCursor)
      (hfinite : c.head.isFinite = true)
      (hfront : ∀ d ∈ front, moment c.head < moment d.head)
      (hback : ∀ d ∈ back, moment c.head ≤ moment d.head) :
      Earliest (front ++ c :: back) (some front.length, c.head)

/-- The next time of a cursor is that of a record, or there is none left. -/
def TypeCursor.Timely (c : TypeCursor) : Prop := c.head.isFinite = true ∨ c.head = .infinite false

variable {cursors : List TypeCursor}

theorem earliest_better {best : Option ℕ × JsNumber} (h : Earliest cursors best) {c : TypeCursor}
    (hc : c.Timely) :
    Earliest (cursors ++ [c]) (better best (c, cursors.length)) := by
  cases h with
  | done h =>
    rw [better]
    obtain hfinite | hdone := hc
    · have hlt := (lt_iff_moment (.inl hfinite) (.inr rfl)).mpr (moment_of_isFinite hfinite)
      rw [if_pos hlt]
      refine .found cursors c [] hfinite (fun d hd => ?_) (List.forall_mem_nil _)
      rw [h d hd]
      exact moment_of_isFinite hfinite
    · rw [if_neg (by rw [hdone]; exact Bool.false_ne_true)]
      refine .done fun d hd => ?_
      obtain hd | hd := List.mem_append.mp hd
      · exact h d hd
      · rw [List.mem_singleton.mp hd, hdone]
  | found front b back hfinite hfront hback =>
    rw [better]
    split_ifs with hlt
    · rw [lt_iff_moment hc (.inl hfinite)] at hlt
      have hcfinite : c.head.isFinite = true := by
        obtain hcfinite | hdone := hc
        · exact hcfinite
        · rw [hdone] at hlt
          exact absurd hlt (not_lt_of_ge le_top)
      refine .found (front ++ b :: back) c [] hcfinite (fun d hd => ?_) (List.forall_mem_nil _)
      obtain hd | hd := List.mem_append.mp hd
      · exact hlt.trans (hfront d hd)
      · obtain rfl | hd := List.mem_cons.mp hd
        · exact hlt
        · exact lt_of_lt_of_le hlt (hback d hd)
    · rw [lt_iff_moment hc (.inl hfinite), not_lt] at hlt
      rw [List.append_assoc, List.cons_append]
      refine .found front b (back ++ [c]) hfinite hfront fun d hd => ?_
      obtain hd | hd := List.mem_append.mp hd
      · exact hback d hd
      · rwa [List.mem_singleton.mp hd]

theorem earliest_bestOf (h : ∀ c ∈ cursors, c.Timely) :
    Earliest cursors (bestOf cursors) := by
  induction cursors using List.reverseRecOn with
  | nil => exact .done (List.forall_mem_nil _)
  | append_singleton cursors c ih =>
    rw [bestOf, List.zipIdx_append, List.foldl_append, ← bestOf]
    have hbest := ih fun d hd => h d (List.mem_append_left _ hd)
    simpa using earliest_better hbest (h c (List.mem_append_right _ (List.mem_singleton_self c)))

/-! ## What is fed -/

def pushOf (type : Text) (column : Option Text) (param : Text → Option JsNumber)
    (record : MessageRecord) : Option Push :=
  (recordTime record).map fun time => ⟨type, record, time, instanceOf record column, param⟩

def timedRecords (log : DataflashLogLike) (param : Text → Option JsNumber) (type : Text) :
    List Push :=
  (log.records type).filterMap (pushOf type (dataflashInstanceColumn log type) param)

structure InTimeOrder (log : DataflashLogLike) (type : Text) : Prop where
  isFinite : ∀ time ∈ (log.records type).filterMap recordTime, time.isFinite = true
  ordered : ((log.records type).filterMap recordTime).Pairwise fun x y => x.le y = true

namespace TypeCursor
variable {param : Text → Option JsNumber}

def pushes (param : Text → Option JsNumber) (c : TypeCursor) : List Push :=
  c.rest.filterMap (pushOf c.type c.column param)

/-- The cursor is at a record with a finite time, or at the end of its list. -/
inductive Ready : TypeCursor → Prop
  | finished (type : Text) (column : Option Text) : Ready ⟨type, column, [], .infinite false⟩
  | next (type : Text) (column : Option Text) (record : MessageRecord) (rest : List MessageRecord)
      (time : JsNumber) (htime : recordTime record = some time)
      (hfinite : ∀ t ∈ (record :: rest).filterMap recordTime, t.isFinite = true) :
      Ready ⟨type, column, record :: rest, time⟩

theorem advance_cons {type : Text} {column : Option Text} {record : MessageRecord}
    {rest : List MessageRecord} {head : JsNumber} :
    advance ⟨type, column, record :: rest, head⟩ =
      match recordTime record with
      | none => advance ⟨type, column, rest, head⟩
      | some time => ⟨type, column, record :: rest, time⟩ := by
  unfold advance
  dsimp only
  cases htime : recordTime record with
  | none => rw [List.dropWhile_cons_of_pos (by rw [htime]; rfl)]
  | some time =>
    rw [List.dropWhile_cons_of_neg (by rw [htime]; exact Bool.false_ne_true), List.head?_cons,
      Option.bind_some, htime]
    rfl

theorem advance_spec (param : Text → Option JsNumber) (type : Text) (column : Option Text)
    (rest : List MessageRecord) (head : JsNumber)
    (hfinite : ∀ t ∈ rest.filterMap recordTime, t.isFinite = true) :
    (advance ⟨type, column, rest, head⟩).Ready ∧
      (advance ⟨type, column, rest, head⟩).pushes param =
        rest.filterMap (pushOf type column param) ∧
      (advance ⟨type, column, rest, head⟩).rest.length ≤ rest.length := by
  induction rest with
  | nil => exact ⟨.finished type column, rfl, Nat.le_refl _⟩
  | cons record rest ih =>
    rw [advance_cons]
    cases htime : recordTime record with
    | none =>
      rw [List.filterMap_cons_none htime] at hfinite
      obtain ⟨hready, hpushes, hlength⟩ := ih hfinite
      have hpush : pushOf type column param record = none := by rw [pushOf, htime]; rfl
      rw [List.filterMap_cons_none hpush]
      exact ⟨hready, hpushes, Nat.le_succ_of_le hlength⟩
    | some time => exact ⟨.next type column record rest time htime hfinite, rfl, Nat.le_refl _⟩

variable {c : TypeCursor}

theorem Ready.timely (h : c.Ready) : c.Timely := by
  cases h with
  | finished => exact .inr rfl
  | next type column record rest time htime hfinite =>
    exact .inl (hfinite time (List.mem_filterMap.mpr ⟨record, List.mem_cons_self .., htime⟩))

theorem Ready.head_pushes (h : c.Ready) {push : Push} (hpush : push ∈ (c.pushes param).head?) :
    push.timeSeconds = c.head := by
  cases h with
  | finished => cases hpush
  | next type column record rest time htime hfinite =>
    have hrecord : pushOf type column param record =
        some ⟨type, record, time, instanceOf record column, param⟩ := by rw [pushOf, htime]; rfl
    rw [pushes, List.filterMap_cons_some hrecord] at hpush
    exact congrArg Push.timeSeconds (Option.some.inj hpush).symm

theorem Ready.pushes_of_done (h : c.Ready) (hdone : c.head = .infinite false) :
    c.pushes param = [] := by
  cases h with
  | finished => rfl
  | next type column record rest time htime hfinite =>
    have htime := hfinite time (List.mem_filterMap.mpr ⟨record, List.mem_cons_self .., htime⟩)
    rw [show time = .infinite false from hdone] at htime
    exact absurd htime Bool.false_ne_true

end TypeCursor

/-! ## The merge is one of the lists -/

open TypeCursor

variable {param : Text → Option JsNumber}

theorem mergeTurn_of_done (h : bestOf cursors = (none, .infinite false)) :
    mergeTurn param cursors = none := by
  rw [mergeTurn, h]
  rfl

variable {type : Text}

theorem mergeTurn_of_found {front back : List TypeCursor} {column : Option Text}
    {record : MessageRecord} {rest : List MessageRecord} {time : JsNumber}
    (h : bestOf (front ++ ⟨type, column, record :: rest, time⟩ :: back) = (some front.length, time)) :
    mergeTurn param (front ++ ⟨type, column, record :: rest, time⟩ :: back) =
      some (⟨type, record, time, instanceOf record column, param⟩,
        front ++ advance ⟨type, column, rest, time⟩ :: back) := by
  have hat : (front ++ (⟨type, column, record :: rest, time⟩ : TypeCursor) :: back)[front.length]? =
      some ⟨type, column, record :: rest, time⟩ := by
    rw [List.getElem?_append_right (Nat.le_refl _), Nat.sub_self, List.getElem?_cons_zero]
  rw [mergeTurn, h]
  dsimp only [Option.bind_some]
  rw [hat, Option.bind_some, modify_append_cons]
  rfl

theorem merged_mergeLoop (param : Text → Option JsNumber) (turns : ℕ)
    (hready : ∀ c ∈ cursors, c.Ready) (hturns : (cursors.map fun c => c.rest.length).sum < turns) :
    Merged (fun push => moment push.timeSeconds) (cursors.map (pushes param))
      (mergeLoop param turns cursors) := by
  induction turns generalizing cursors with
  | zero => exact absurd hturns (Nat.not_lt_zero _)
  | succ turns ih =>
    have hbest := earliest_bestOf fun c hc => (hready c hc).timely
    rw [mergeLoop]
    generalize hvalue : bestOf cursors = best at hbest
    cases hbest with
    | done hdone =>
      rw [mergeTurn_of_done hvalue]
      refine .done fun s hs => ?_
      obtain ⟨c, hc, rfl⟩ := List.mem_map.mp hs
      exact (hready c hc).pushes_of_done (hdone c hc)
    | found front c back hfinite hfront hback =>
      have hc := hready c (List.mem_append_right _ (List.mem_cons_self ..))
      cases hc with
      | finished => exact absurd hfinite Bool.false_ne_true
      | next type column record rest time htime hfinite' =>
        rw [mergeTurn_of_found hvalue]
        have hrest : ∀ t ∈ rest.filterMap recordTime, t.isFinite = true := by
          intro t ht
          refine hfinite' t ?_
          rw [List.filterMap_cons_some htime]
          exact List.mem_cons_of_mem _ ht
        obtain ⟨hnext, hpushes, hlength⟩ :=
          advance_spec param type column rest time hrest
        have hrecord : pushOf type column param record =
            some ⟨type, record, time, instanceOf record column, param⟩ := by rw [pushOf, htime]; rfl
        have hstream : pushes param ⟨type, column, record :: rest, time⟩ =
            ⟨type, record, time, instanceOf record column, param⟩ ::
              pushes param (advance ⟨type, column, rest, time⟩) := by
          rw [hpushes, pushes, List.filterMap_cons_some hrecord]
        rw [List.map_append, List.map_cons, hstream]
        refine .next _ _ _ _ ?_ ?_ ?_
        · intro t ht push hpush
          obtain ⟨d, hd, rfl⟩ := List.mem_map.mp ht
          rw [(hready d (List.mem_append_left _ hd)).head_pushes hpush]
          exact hfront d hd
        · intro t ht push hpush
          obtain ⟨d, hd, rfl⟩ := List.mem_map.mp ht
          rw [(hready d (List.mem_append_right _ (List.mem_cons_of_mem _ hd))).head_pushes hpush]
          exact hback d hd
        · rw [← List.map_cons, ← List.map_append]
          refine ih (fun d hd => ?_) ?_
          · obtain hd | hd := List.mem_append.mp hd
            · exact hready d (List.mem_append_left _ hd)
            · obtain rfl | hd := List.mem_cons.mp hd
              · exact hnext
              · exact hready d (List.mem_append_right _ (List.mem_cons_of_mem _ hd))
          · simp only [List.map_append, List.map_cons, List.sum_append, List.sum_cons,
              List.length_cons] at hturns ⊢
            omega

/-- The pushes of a log are the timestamped records of the types, each once, in the order of time
and at one time in the order of the types. -/
structure FeedsAll (log : DataflashLogLike) (types : List Text) (param : Text → Option JsNumber)
    (pushes : List Push) : Prop where
  ofType : ∀ type ∈ types,
    pushes.filter (fun push => push.messageName = type) = timedRecords log param type
  mem_types : ∀ push ∈ pushes, push.messageName ∈ types
  ordered : pushes.Pairwise fun p q => p.timeSeconds.le q.timeSeconds = true ∧
    (p.timeSeconds.equal q.timeSeconds = true →
      types.idxOf p.messageName ≤ types.idxOf q.messageName)

variable {log : DataflashLogLike}

theorem mem_timedRecords {push : Push} (h : push ∈ timedRecords log param type) :
    push.messageName = type ∧
      push.timeSeconds ∈ (log.records type).filterMap recordTime := by
  obtain ⟨record, hrecord, hpush⟩ := List.mem_filterMap.mp h
  obtain ⟨time, htime, rfl⟩ := Option.map_eq_some_iff.mp hpush
  exact ⟨rfl, List.mem_filterMap.mpr ⟨record, hrecord, htime⟩⟩

theorem times_timedRecords (param : Text → Option JsNumber) (log : DataflashLogLike) (type : Text) :
    (timedRecords log param type).map Push.timeSeconds =
      (log.records type).filterMap recordTime := by
  rw [timedRecords, List.map_filterMap]
  refine List.filterMap_congr fun record _ => ?_
  rw [pushOf, Option.map_map]
  exact Option.map_id'

theorem sorted_timedRecords (h : InTimeOrder log type) :
    (timedRecords log param type).Pairwise
      fun p q => moment p.timeSeconds ≤ moment q.timeSeconds := by
  have hordered := h.ordered
  rw [← times_timedRecords param, List.pairwise_map] at hordered
  refine hordered.imp_of_mem fun hp hq hle => ?_
  exact (le_iff_moment (h.isFinite _ (mem_timedRecords hp).2)
    (h.isFinite _ (mem_timedRecords hq).2)).mp hle

theorem mergedPushes_feedsAll {types : List Text} (param : Text → Option JsNumber)
    (hnodup : types.Nodup) (h : ∀ type ∈ types, InTimeOrder log type) :
    FeedsAll log types param (mergedPushes log types param) := by
  have hcursor : ∀ type ∈ types, (cursorOf log type).Ready ∧
      (cursorOf log type).pushes param = timedRecords log param type := by
    intro type htype
    obtain ⟨hready, hpushes, _⟩ := advance_spec param type
      (dataflashInstanceColumn log type) (log.records type) (.infinite false)
      (h type htype).isFinite
    exact ⟨hready, hpushes⟩
  have hmerged : Merged (fun push => moment push.timeSeconds)
      (types.map (timedRecords log param)) (mergedPushes log types param) := by
    have hready : ∀ c ∈ types.map (cursorOf log), c.Ready := by
      intro c hc
      obtain ⟨type, htype, rfl⟩ := List.mem_map.mp hc
      exact (hcursor type htype).1
    have hmerged := merged_mergeLoop param _ hready (Nat.lt_succ_self _)
    rw [List.map_map] at hmerged
    rwa [List.map_congr_left fun type htype => (hcursor type htype).2.symm]
  have hmem : ∀ push ∈ mergedPushes log types param, push.messageName ∈ types ∧
      push.timeSeconds.isFinite = true := by
    intro push hpush
    obtain ⟨s, hs, hpush⟩ := hmerged.interleave.mem hpush
    obtain ⟨type, htype, rfl⟩ := List.mem_map.mp hs
    obtain ⟨rfl, htime⟩ := mem_timedRecords hpush
    exact ⟨htype, (h _ htype).isFinite _ htime⟩
  refine ⟨fun type htype => ?_, fun push hpush => (hmem push hpush).1, ?_⟩
  · have hkey : ∀ type ∈ types, ∀ push ∈ timedRecords log param type, push.messageName = id type :=
      fun type _ push hpush => (mem_timedRecords hpush).1
    exact hmerged.interleave.filter_key hkey (by rwa [List.map_id]) htype
  · have hsorted : ∀ s ∈ types.map (timedRecords log param),
        s.Pairwise fun p q => moment p.timeSeconds ≤ moment q.timeSeconds := by
      intro s hs
      obtain ⟨type, htype, rfl⟩ := List.mem_map.mp hs
      exact sorted_timedRecords (h type htype)
    have hrank : ∀ (i : ℕ) s, (types.map (timedRecords log param))[i]? = some s → ∀ push ∈ s,
        types.idxOf push.messageName = i := by
      intro i s hs push hpush
      rw [List.getElem?_map, Option.map_eq_some_iff] at hs
      obtain ⟨type, htype, rfl⟩ := hs
      obtain ⟨hi, rfl⟩ := List.getElem?_eq_some_iff.mp htype
      rw [(mem_timedRecords hpush).1]
      exact hnodup.idxOf_getElem i hi
    have hpairwise := hmerged.pairwise hsorted hrank
    refine hpairwise.imp_of_mem fun {p q} hp hq hor => ?_
    have hpfinite := (hmem p hp).2
    have hqfinite := (hmem q hq).2
    rw [le_iff_moment hpfinite hqfinite, equal_iff_moment hpfinite hqfinite]
    obtain hlt | ⟨heq, hrank⟩ := hor
    · exact ⟨le_of_lt hlt, fun heq => absurd heq (ne_of_lt hlt)⟩
    · exact ⟨le_of_eq heq, fun _ => hrank⟩

/-! ## The types of a graph -/

def isSupported (engine : Engine) (tables : MagFieldTables) (term : Term) : Bool :=
  (termFunctions term).all (SUPPORTED_FUNCTIONS engine tables).contains

def referencedTypes (terms : List Term) : List Text :=
  (terms.flatMap fun term => (termReferences term).map Reference.message).eraseDups

def addName (seen : List Text) (name : Text) : List Text :=
  if name ∈ seen then seen else seen ++ [name]

theorem foldl_addName (seen names : List Text) :
    names.foldl addName seen = seen ++ (names.filter (· ∉ seen)).eraseDups := by
  induction names generalizing seen with
  | nil => simp
  | cons name names ih =>
    rw [List.foldl_cons, ih, addName]
    split_ifs with hmem
    · rw [List.filter_cons_of_neg (by simpa using hmem)]
    · rw [List.filter_cons_of_pos (by simpa using hmem), List.eraseDups_cons, List.filter_filter,
        List.append_assoc, List.singleton_append]
      have hfilter : names.filter (· ∉ seen ++ [name]) =
          names.filter fun other => !other == name && decide (other ∉ seen) := by
        refine List.filter_congr fun other _ => ?_
        rw [Bool.eq_iff_iff]
        simp [and_comm]
      rw [hfilter]

theorem foldl_addName_nil (names : List Text) : names.foldl addName [] = names.eraseDups := by
  rw [foldl_addName, List.nil_append, List.filter_eq_self.mpr (by simp)]

variable {seen : List Text}

theorem mem_foldl_addName {names : List Text} {name : Text} :
    name ∈ names.foldl addName seen ↔ name ∈ seen ∨ name ∈ names := by
  rw [foldl_addName, List.mem_append, List.mem_eraseDups, List.mem_filter, decide_eq_true_iff]
  tauto

theorem foldl_addName_foldl (seen acc names : List Text) :
    (names.foldl addName acc).foldl addName seen =
      names.foldl addName (acc.foldl addName seen) := by
  induction names generalizing acc with
  | nil => rfl
  | cons name names ih =>
    rw [List.foldl_cons, ih, List.foldl_cons, addName, addName]
    congr 1
    split_ifs with hacc hboth hboth
    · rfl
    · exact absurd (mem_foldl_addName.mpr (.inr hacc)) hboth
    · rw [List.foldl_append, List.foldl_cons, List.foldl_nil, addName, if_pos hboth]
    · rw [List.foldl_append, List.foldl_cons, List.foldl_nil, addName, if_neg hboth]

theorem nodup_addName (h : seen.Nodup) (name : Text) :
    (addName seen name).Nodup := by
  rw [addName]
  split_ifs with hmem
  · exact h
  · exact h.append (List.nodup_singleton name) (by simpa using hmem)

theorem nodup_foldl_addName (h : seen.Nodup) (names : List Text) :
    (names.foldl addName seen).Nodup := by
  induction names generalizing seen with
  | nil => exact h
  | cons name names ih => exact ih (nodup_addName h name)

theorem nodup_referencedTypes (terms : List Term) : (referencedTypes terms).Nodup := by
  rw [referencedTypes, ← foldl_addName_nil]
  exact nodup_foldl_addName List.nodup_nil _

theorem keys_addToType (i : ℕ) (byType : JsMap Text (List ℕ)) (type : Text) :
    (addToType i byType type).keys = addName byType.keys type := by
  rw [addToType, addName]
  split_ifs with hmem
  · exact Entries.keys_set_of_mem hmem _
  · exact Entries.keys_set_of_notMem hmem _

theorem keys_addToTypes (i : ℕ) (byType : JsMap Text (List ℕ)) (types : List Text) :
    (types.foldl (addToType i) byType).keys = types.foldl addName byType.keys := by
  induction types generalizing byType with
  | nil => rfl
  | cons type types ih => rw [List.foldl_cons, ih, keys_addToType, List.foldl_cons]

theorem types_requirements (refs : List Reference) (r : Requirements) :
    (refs.foldl Requirements.add r).types = (refs.map Reference.message).foldl addName r.types := by
  induction refs generalizing r with
  | nil => rfl
  | cons ref refs ih => rw [List.foldl_cons, ih]; rfl

variable (engine : Engine) (tables : MagFieldTables)

theorem isSupported_iff (term : Term) :
    isSupported engine tables term = true ↔ (makePlan engine tables term).unsupported = none := by
  rw [makePlan, Option.map_eq_none_iff, List.find?_eq_none, isSupported, List.all_eq_true]
  simp

theorem keys_addPlans (terms : List Term) (start : ℕ) (byType : JsMap Text (List ℕ)) :
    (((terms.map (makePlan engine tables)).zipIdx start).foldl addPlan byType).keys =
      ((terms.filter (isSupported engine tables)).flatMap fun term =>
        (termReferences term).map Reference.message).foldl addName byType.keys := by
  induction terms generalizing start byType with
  | nil => rfl
  | cons term terms ih =>
    rw [List.map_cons, List.zipIdx_cons, List.foldl_cons, ih, addPlan]
    by_cases hsupported : isSupported engine tables term = true
    · have hnone := (isSupported_iff engine tables term).mp hsupported
      have htypes : (makePlan engine tables term).types =
          ((termReferences term).map Reference.message).foldl addName [] :=
        types_requirements (termReferences term) Requirements.none
      rw [List.filter_cons_of_pos hsupported, List.flatMap_cons, List.foldl_append,
        if_neg (by simp [hnone]), keys_addToTypes, htypes, foldl_addName_foldl]
      rfl
    · have hsome : (makePlan engine tables term).unsupported.isSome = true := by
        rw [Option.isSome_iff_ne_none]
        exact fun hnone => hsupported ((isSupported_iff engine tables term).mpr hnone)
      rw [List.filter_cons_of_neg hsupported, if_pos hsome]

theorem messageTypes_eq (terms : List Term) :
    (createGraphEvaluator engine tables terms).messageTypes =
      referencedTypes (terms.filter (isSupported engine tables)) := by
  rw [referencedTypes, ← foldl_addName_nil]
  exact keys_addPlans engine tables terms 0 .empty

/-- Over a log whose records are in order, an evaluator is given the merge of the records of the
types that its supported terms reference. -/
theorem evaluateOnDataflash_feeds (log : DataflashLogLike) (terms : List Term)
    (param : Option (Text → Option JsNumber)) (h : ∀ type, InTimeOrder log type) :
    let evaluator := createGraphEvaluator engine tables terms
    let lookup := param.getD (dataflashParams log)
    let pushes := mergedPushes log evaluator.messageTypes lookup
    evaluateOnDataflash engine tables log terms param =
        (pushes.foldl GraphEvaluator.push evaluator).series ∧
      FeedsAll log (referencedTypes (terms.filter (isSupported engine tables))) lookup pushes := by
  refine ⟨rfl, ?_⟩
  rw [messageTypes_eq]
  exact mergedPushes_feedsAll _ (nodup_referencedTypes _) fun type _ => h type

def firstRecord : MessageRecord :=
  ⟨0, fun field => if field = units "TimeUS" then .num 0 else .undefined⟩

def untimedRecord : MessageRecord := ⟨1, fun _ => .undefined⟩

def tiedLog : DataflashLogLike :=
  ⟨(JsMap.empty.set (units "GPS") [firstRecord]).set (units "ATT")
    [firstRecord, untimedRecord, firstRecord], .empty⟩

theorem inTimeOrder_tiedLog (type : Text) : InTimeOrder tiedLog type := by
  have hfinite : ((0 : JsNumber) * 1e-6).isFinite = true := by decide +kernel
  have hle : ((0 : JsNumber) * 1e-6).le (0 * 1e-6) = true :=
    (le_iff_moment hfinite hfinite).mpr le_rfl
  have htimes : ∃ n, (tiedLog.records type).filterMap recordTime =
      List.replicate n ((0 : JsNumber) * 1e-6) := by
    unfold DataflashLogLike.records tiedLog
    rw [JsMap.get_set, JsMap.get_set, JsMap.get_empty]
    split_ifs
    · exact ⟨2, rfl⟩
    · exact ⟨1, rfl⟩
    · exact ⟨0, rfl⟩
  obtain ⟨n, htimes⟩ := htimes
  generalize hzero : (0 : JsNumber) * 1e-6 = zero at hfinite hle htimes
  refine ⟨fun time htime => ?_, ?_⟩
  · rw [htimes] at htime
    rwa [List.eq_of_mem_replicate htime]
  · rw [htimes]
    exact List.pairwise_replicate.mpr (.inr hle)

/-- `foo(ATT.Roll)`: there is no function of that name. -/
def fooTerm : Term :=
  ⟨units "foo(ATT.Roll)", units "foo(ATT.Roll)", .first,
    .call (units "foo") [.attr (.name (units "ATT")) (units "Roll")], none, ⟨rfl, trivial⟩,
    named_of_no_condition⟩

/-- The records of a type that only an unsupported term references are not fed. -/
theorem unsupported_not_fed : (∀ type, InTimeOrder tiedLog type) ∧
    ¬FeedsAll tiedLog (referencedTypes [fooTerm]) (dataflashParams tiedLog)
      (mergedPushes tiedLog (createGraphEvaluator bareEngine noTables [fooTerm]).messageTypes
        (dataflashParams tiedLog)) := by
  refine ⟨inTimeOrder_tiedLog, fun h => ?_⟩
  have htypes : (createGraphEvaluator bareEngine noTables [fooTerm]).messageTypes = [] := by
    have hunsupported : isSupported bareEngine noTables fooTerm = false := by decide +kernel
    rw [messageTypes_eq, List.filter_cons_of_neg (by rw [hunsupported]; exact Bool.false_ne_true)]
    exact List.eraseDups_nil
  have hpushes := h.ofType (units "ATT") (by decide +kernel)
  rw [htypes] at hpushes
  have hlength : (timedRecords tiedLog (dataflashParams tiedLog) (units "ATT")).length = 2 := rfl
  rw [← hpushes] at hlength
  exact absurd hlength (by decide)

/-- Records at one time of two types, one of them with a gap. -/
theorem tiedLog_fed :
    let terms := [fieldTerm (units "GPS") (units "Spd") rfl,
      fieldTerm (units "ATT") (units "Roll") rfl]
    let lookup := dataflashParams tiedLog
    let pushes := mergedPushes tiedLog
      (createGraphEvaluator bareEngine noTables terms).messageTypes lookup
    (pushes.filter fun push => push.messageName = units "ATT").length = 2 ∧
      FeedsAll tiedLog (referencedTypes (terms.filter (isSupported bareEngine noTables))) lookup
        pushes := by
  have h := (evaluateOnDataflash_feeds bareEngine noTables tiedLog
    [fieldTerm (units "GPS") (units "Spd") rfl, fieldTerm (units "ATT") (units "Roll") rfl] none
    inTimeOrder_tiedLog).2
  have hlength : (timedRecords tiedLog (dataflashParams tiedLog) (units "ATT")).length = 2 := rfl
  exact ⟨(congrArg List.length (h.ofType (units "ATT") (by decide +kernel))).trans hlength, h⟩

end ArduConfigurator.PlotCore.Dataflash
