import LateBinding.Proofs.Client.Custody
import LateBinding.Proofs.Steps
import LateBinding.Proofs.Symbol.Distinct
import LateBinding.Simulation.Objects

/-!
**Each point in time of metrics is the one that was last given under its name.**

Metrics have a date for each of thirteen names, or none. A library copies times if it keeps the
milliseconds of the date that such a field is set to: whoever changes or destroys that date later
does not change the field, and to set one field does not change another. Between the client and such
a library stand four lists in which a name must be the same: the names, the operations that get and
set, the operations whose answers stand beside the names, and the symbols that these are bound to.
**Under each name comes back what was last given under that name**, and none if nothing was.

Main definitions:

* `LateBinding.Client.CopiesTimes` — a library that copies times;
* `LateBinding.Client.TimeStep` — **what a client may do with its dates and with metrics**;
* `LateBinding.Client.givenTo` — the milliseconds that a field was set to, in order.

Main results:

* `LateBinding.Client.timestampGetters_eq`, `LateBinding.Client.timestampAccessors_eq` — the
  operations stand in the order of the names;
* `LateBinding.Client.slot?_timestamps` — the functions of a name are bound to the symbols of that
  name;
* `LateBinding.Client.CopiesTimes.answer_timestamps` — the points in time are what the library
  keeps;
* `LateBinding.Client.CopiesTimes.serves_and_kept_of_steps` — what the library keeps in the end;
* `LateBinding.Client.timestamps_are_last_given` — **all of it together**.
-/

set_option autoImplicit false

namespace LateBinding.Client

open Native (Address Word Value)
open LateBinding.Symbol (Slot)
open Simulation (Field)
open Program (Machine)

/-! ### The functions -/

/-- The functions that work on dates. -/
def dateMaker : Slot :=
  ⟨"date_time", "date_time_create", "Cronet_DateTime_Create", [], .handle .dateTime⟩

def dateDestroyer : Slot :=
  ⟨"date_time", "date_time_destroy", "Cronet_DateTime_Destroy", [.handle .dateTime], .unit⟩

def dateSetter : Slot :=
  ⟨"date_time", "date_time_value_set", "Cronet_DateTime_value_set", [.handle .dateTime, .int64],
    .unit⟩

def dateGetter : Slot :=
  ⟨"date_time", "date_time_value_get", "Cronet_DateTime_value_get", [.handle .dateTime], .int64⟩

/-- The function that sets a point in time of metrics. -/
def timestampSetterOf (name : String) : Slot :=
  ⟨"metrics", "metrics_" ++ name ++ "_set", "Cronet_Metrics_" ++ name ++ "_set",
    [.handle .metrics, .handle .dateTime], .unit⟩

/-- The function that gives it. -/
def timestampGetterOf (name : String) : Slot :=
  ⟨"metrics", "metrics_" ++ name ++ "_get", "Cronet_Metrics_" ++ name ++ "_get", [.handle .metrics],
    .handle .dateTime⟩

/-- The functions that set stand in the table in the order of the names, and so do those that
give. -/
theorem timestampSlots_eq :
    timestampNames.map timestampSetterOf = (Symbol.metricsSlots.drop 2).take 13 ∧
      timestampNames.map timestampGetterOf = (Symbol.metricsSlots.drop 18).take 13 :=
  ⟨rfl, rfl⟩

/-- **The functions of a name are bound to the symbols of that name.** -/
theorem slot?_timestamps : ∀ name ∈ timestampNames,
    Symbol.slot? (timestampSetterOf name).operation = some (timestampSetterOf name) ∧
      Symbol.slot? (timestampGetterOf name).operation = some (timestampGetterOf name) := by
  intro name hname
  obtain ⟨hsetters, hgetters⟩ := timestampSlots_eq
  have hsetter : timestampSetterOf name ∈ Symbol.metricsSlots :=
    List.mem_of_mem_drop (List.mem_of_mem_take (hsetters ▸ List.mem_map_of_mem hname))
  have hgetter : timestampGetterOf name ∈ Symbol.metricsSlots :=
    List.mem_of_mem_drop (List.mem_of_mem_take (hgetters ▸ List.mem_map_of_mem hname))
  obtain ⟨-, -, -, hmetrics⟩ := Symbol.groups_subset
  exact ⟨Symbol.slot?_of_mem (hmetrics hsetter), Symbol.slot?_of_mem (hmetrics hgetter)⟩

/-- The operations whose answers stand beside the names get the points in time of these names. -/
theorem timestampGetters_eq :
    timestampGetters = timestampNames.map fun name => "metrics_" ++ name ++ "_get" := rfl

/-- So do those that get and set. -/
theorem timestampAccessors_eq :
    timestampAccessors = timestampNames.map fun name =>
      ("metrics_" ++ name ++ "_get", "metrics_" ++ name ++ "_set") := rfl

/-- The functions that the operations of a name call. -/
theorem functionOf_timestamps {name : String} (hname : name ∈ timestampNames) :
    functionOf ("metrics_" ++ name ++ "_set") = timestampSetterOf name ∧
      functionOf ("metrics_" ++ name ++ "_get") = timestampGetterOf name := by
  obtain ⟨hset, hget⟩ := slot?_timestamps name hname
  have hset' : Symbol.slot? ("metrics_" ++ name ++ "_set") = some (timestampSetterOf name) := hset
  have hget' : Symbol.slot? ("metrics_" ++ name ++ "_get") = some (timestampGetterOf name) := hget
  rw [functionOf, functionOf, hset', hget']
  exact ⟨rfl, rfl⟩

theorem slot?_dates : ∀ slot ∈ [dateMaker, dateDestroyer, dateSetter, dateGetter],
    Symbol.slot? slot.operation = some slot := by
  have hdates : [dateMaker, dateDestroyer, dateSetter, dateGetter] = Symbol.dateTimeSlots := rfl
  obtain ⟨-, -, hsubset, -⟩ := Symbol.groups_subset
  rw [hdates]
  exact fun slot hslot => Symbol.slot?_of_mem (hsubset hslot)

/-! ### Libraries that copy times -/

/-- Dates with their milliseconds, and the milliseconds in the fields of metrics. A field of a name
lends a date. -/
abbrev Times := Stock Field Int (Field → Option Int)

/-- Whether a number has 64 bits. -/
def IsInt64 (n : Int) : Prop := -9223372036854775808 ≤ n ∧ n ≤ 9223372036854775807

instance (n : Int) : Decidable (IsInt64 n) := inferInstanceAs (Decidable (_ ∧ _))

/-- **A library copies times**, where `times` is what it has of them in a state. Dates are made,
set, read and destroyed, which does not change what is kept for metrics, and does not concern the
dates that it lends. A field that is set keeps the milliseconds of the date, in place of what it
kept before. It lends a date with the milliseconds that it keeps, and the null handle if it keeps
none. -/
structure CopiesTimes {σ : Type} (lib : Machine σ) (isMetrics : Address → Prop)
    (times : σ → Times) : Prop where
  create : ∀ s, (times s).Makes (fun _ => True) (lib dateMaker.symbol [] s).2.address
    (times (lib dateMaker.symbol [] s).1)
  change : ∀ s a v w, (times s).object a = some w → ¬ (times s).IsLent a → IsInt64 v →
    times (lib dateSetter.symbol [.handle a, .int v] s).1 = (times s).put a (some v)
  destroy : ∀ s a w, (times s).object a = some w → ¬ (times s).IsLent a →
    times (lib dateDestroyer.symbol [.handle a] s).1 = (times s).put a none
  read : ∀ s a v, (times s).object a = some v →
    (lib dateGetter.symbol [.handle a] s).2.number = v ∧
    times (lib dateGetter.symbol [.handle a] s).1 = times s
  set : ∀ s metrics name a v, isMetrics metrics → name ∈ timestampNames →
    (times s).object a = some v →
    (times s).Keeps (Function.update (times s).kept (metrics, name) (some v))
      (times (lib (timestampSetterOf name).symbol [.handle metrics, .handle a] s).1)
  get : ∀ s metrics name, isMetrics metrics → name ∈ timestampNames →
    (lib (timestampGetterOf name).symbol [.handle metrics] s).2.address =
        (times s).lent (metrics, name) ∧
      times (lib (timestampGetterOf name).symbol [.handle metrics] s).1 = times s
  lends : ∀ s metrics name v, isMetrics metrics → name ∈ timestampNames →
    (times s).kept (metrics, name) = some v →
      (times s).lent (metrics, name) ≠ nullHandle ∧
      (times s).object ((times s).lent (metrics, name)) = some v
  lends_none : ∀ s metrics name, isMetrics metrics → name ∈ timestampNames →
    (times s).kept (metrics, name) = none → (times s).lent (metrics, name) = nullHandle

/-! ### What a client does -/

/-- A point in time of metrics was set to milliseconds, or something else happened. -/
inductive TimeEvent where
  | set (metrics : Address) (name : String) (millis : Int)
  | other

section Steps

variable {σ : Type} {lib : Machine σ} {isMetrics : Address → Prop} {times : σ → Times}

/-- **What a client may do.** It makes dates, or is refused one; it changes and destroys the dates
that it has made; it sets points in time to any date that is alive; and it reads dates and points in
time. -/
inductive TimeStep (lib : Machine σ) (isMetrics : Address → Prop) (times : σ → Times) :
    Custody σ Int → TimeEvent → Custody σ Int → Prop
  | create (c : Custody σ Int) {a : Address} {v : Int}
      (hanswer : (Operation.direct dateMaker []).answer lib c.library = .value (.handle a))
      (hnull : a ≠ nullHandle)
      (hv : (times ((Operation.direct dateMaker []).after lib c.library)).object a = some v) :
      TimeStep lib isMetrics times c .other
        ⟨(Operation.direct dateMaker []).after lib c.library, Function.update c.mine a (some v)⟩
  | refuse (c : Custody σ Int)
      (hanswer :
        (Operation.direct dateMaker []).answer lib c.library = .value (.handle nullHandle)) :
      TimeStep lib isMetrics times c .other
        ⟨(Operation.direct dateMaker []).after lib c.library, c.mine⟩
  | change (c : Custody σ Int) {a : Address} {v w : Int} (hmine : c.mine a = some w)
      (hv : IsInt64 v) :
      TimeStep lib isMetrics times c .other
        ⟨(Operation.direct dateSetter [.handle a, .int v]).after lib c.library,
          Function.update c.mine a (some v)⟩
  | destroy (c : Custody σ Int) {a : Address} {w : Int} (hmine : c.mine a = some w) :
      TimeStep lib isMetrics times c .other
        ⟨(Operation.direct dateDestroyer [.handle a]).after lib c.library,
          Function.update c.mine a none⟩
  | set (c : Custody σ Int) {metrics a : Address} {name : String} {v : Int}
      (hmetrics : isMetrics metrics) (hname : name ∈ timestampNames)
      (hv : (times c.library).object a = some v) :
      TimeStep lib isMetrics times c (.set metrics name v)
        ⟨(Operation.direct (functionOf ("metrics_" ++ name ++ "_set"))
          [.handle metrics, .handle a]).after lib c.library, c.mine⟩
  | read (c : Custody σ Int) {a : Address} {v : Int} (hv : (times c.library).object a = some v) :
      TimeStep lib isMetrics times c .other
        ⟨(Operation.dateTimeMillis a).after lib c.library, c.mine⟩
  | readAll (c : Custody σ Int) {metrics : Address} (hmetrics : isMetrics metrics) :
      TimeStep lib isMetrics times c .other
        ⟨(Operation.timestamps metrics).after lib c.library, c.mine⟩

/-- The milliseconds that an event sets a field to. -/
def TimeEvent.givenTo? (field : Field) : TimeEvent → Option Int
  | .set metrics name millis => if (metrics, name) = field then some millis else none
  | .other => none

/-- The milliseconds that a field was set to, in order. -/
def givenTo (field : Field) (es : List TimeEvent) : List Int :=
  es.filterMap (TimeEvent.givenTo? field)

theorem getLast?_givenTo_concat (field : Field) (es : List TimeEvent) (e : TimeEvent) :
    (givenTo field (es ++ [e])).getLast? = (e.givenTo? field).or (givenTo field es).getLast? := by
  rw [givenTo, givenTo, List.filterMap_append, List.getLast?_append]
  cases h : e.givenTo? field <;> simp [h]

end Steps

namespace CopiesTimes

variable {σ : Type} {lib : Machine σ} {isMetrics : Address → Prop} {times : σ → Times}
  {metrics : Address} {s : σ}

/-! ### Reading -/

/-- The time of a date that is alive is what the date holds; it is none for the null handle. -/
theorem runOn_dateTimeMillis (hlib : CopiesTimes lib isMetrics times) {a : Address}
    (ha : a = nullHandle ∨ ∃ v, (times s).object a = some v) :
    ((dateTimeMillis a).runOn lib s).1 = (times s).held? a ∧
      times ((dateTimeMillis a).runOn lib s).2.2 = times s := by
  rw [dateTimeMillis, Stock.held?]
  by_cases hnull : a = nullHandle
  · simp only [if_pos hnull]
    exact ⟨rfl, rfl⟩
  · obtain ⟨v, hv⟩ := ha.resolve_left hnull
    obtain ⟨hread, hsame⟩ := hlib.read s a v hv
    simp only [if_neg hnull, Program.runOn_bind]
    exact ⟨by rw [hv, ← hread]; rfl, hsame⟩

theorem answer_dateTimeMillis (hlib : CopiesTimes lib isMetrics times) {a : Address}
    (ha : a = nullHandle ∨ ∃ v, (times s).object a = some v) :
    (Operation.dateTimeMillis a).answer lib s = .millis ((times s).held? a) ∧
      times ((Operation.dateTimeMillis a).after lib s) = times s := by
  obtain ⟨hread, hsame⟩ := hlib.runOn_dateTimeMillis ha
  rw [Operation.answer, Operation.after, Operation.program, Program.runOn_bind, hread]
  exact ⟨rfl, hsame⟩

theorem runOn_namedMillis (hlib : CopiesTimes lib isMetrics times) {dates : List (String × Address)}
    (hdates : ∀ d ∈ dates, d.2 = nullHandle ∨ ∃ v, (times s).object d.2 = some v) :
    ((namedMillis dates).runOn lib s).1 = dates.map (fun d => (d.1, (times s).held? d.2)) ∧
      times ((namedMillis dates).runOn lib s).2.2 = times s := by
  induction dates generalizing s with
  | nil => exact ⟨rfl, rfl⟩
  | cons d dates ih =>
      obtain ⟨hfirst, hrest⟩ := List.forall_mem_cons.1 hdates
      obtain ⟨hone, hsame⟩ := hlib.runOn_dateTimeMillis hfirst
      rw [← hsame] at hrest
      obtain ⟨hall, hsame'⟩ := ih hrest
      rw [namedMillis, Program.runOn_bind, Program.runOn_bind]
      simp only [Program.runOn, hone, hall, hsame, hsame', List.map_cons, and_self]

/-- The dates that the operations of some names get are those that the library lends for them. -/
theorem runOn_timestampDates (hlib : CopiesTimes lib isMetrics times) (hmetrics : isMetrics metrics)
    {names : List String} (hnames : ∀ name ∈ names, name ∈ timestampNames) :
    ((timestampDates metrics (names.map fun name => "metrics_" ++ name ++ "_get")).runOn lib s).1 =
        names.map (fun name => (times s).lent (metrics, name)) ∧
      times
        ((timestampDates metrics (names.map fun name => "metrics_" ++ name ++ "_get")).runOn lib
          s).2.2 = times s := by
  induction names generalizing s with
  | nil => exact ⟨rfl, rfl⟩
  | cons name names ih =>
      obtain ⟨hfirst, hrest⟩ := List.forall_mem_cons.1 hnames
      obtain ⟨hlent, hsame⟩ := hlib.get s metrics name hmetrics hfirst
      obtain ⟨hall, hsame'⟩ := @ih (lib (timestampGetterOf name).symbol [.handle metrics] s).1 hrest
      rw [List.map_cons, timestampDates, (functionOf_timestamps hfirst).2, Program.runOn_bind,
        Program.runOn_native, Program.runOn_bind]
      simp only [Program.runOn, hlent, hall, hsame, hsame', List.map_cons, and_self]

/-- A date that is lent is alive, unless it is the null handle. -/
theorem alive_of_lent (hlib : CopiesTimes lib isMetrics times) (hmetrics : isMetrics metrics)
    {name : String}
    (hname : name ∈ timestampNames) :
    (times s).lent (metrics, name) = nullHandle ∨
      ∃ v, (times s).object ((times s).lent (metrics, name)) = some v := by
  cases hkept : (times s).kept (metrics, name) with
  | none => exact Or.inl (hlib.lends_none s metrics name hmetrics hname hkept)
  | some v => exact Or.inr ⟨v, (hlib.lends s metrics name v hmetrics hname hkept).2⟩

/-- Behind it is what the field keeps. -/
theorem held?_lent (hlib : CopiesTimes lib isMetrics times) (hmetrics : isMetrics metrics)
    {name : String}
    (hname : name ∈ timestampNames) :
    (times s).held? ((times s).lent (metrics, name)) = (times s).kept (metrics, name) := by
  cases hkept : (times s).kept (metrics, name) with
  | none => rw [hlib.lends_none s metrics name hmetrics hname hkept, Stock.held?, if_pos rfl]
  | some v =>
      obtain ⟨hnull, hv⟩ := hlib.lends s metrics name v hmetrics hname hkept
      rw [Stock.held?, if_neg hnull, hv]

/-- **The points in time are what the library keeps**, and to read them changes nothing. -/
theorem answer_timestamps (hlib : CopiesTimes lib isMetrics times) (hmetrics : isMetrics metrics)
    (s : σ) : (Operation.timestamps metrics).answer lib s =
        .timestamps (timestampNames.map fun name => (name, (times s).kept (metrics, name))) ∧
      times ((Operation.timestamps metrics).after lib s) = times s := by
  -- all dates are fetched before the first is read, and no call changes what is lent or kept
  have hnames : ∀ name ∈ timestampNames, name ∈ timestampNames := fun _ h => h
  obtain ⟨hdates, hsame⟩ := hlib.runOn_timestampDates (s := s) hmetrics hnames
  have halive : ∀ d ∈ timestampNames.zip (timestampNames.map fun name =>
      (times s).lent (metrics, name)), d.2 = nullHandle ∨ ∃ v, (times s).object d.2 = some v := by
    intro d hd
    rw [← List.map_prod_left_eq_zip] at hd
    obtain ⟨name, hname, rfl⟩ := List.mem_map.1 hd
    exact hlib.alive_of_lent hmetrics hname
  rw [← hsame] at halive
  obtain ⟨hmillis, hsame'⟩ := hlib.runOn_namedMillis halive
  rw [hsame] at hmillis hsame'
  have hnamed :
      (timestampNames.zip (timestampNames.map fun name => (times s).lent (metrics, name))).map
          (fun d => (d.1, (times s).held? d.2)) =
        timestampNames.map fun name => (name, (times s).kept (metrics, name)) := by
    rw [← List.map_prod_left_eq_zip, List.map_map]
    exact List.map_congr_left fun name hname => Prod.ext rfl (hlib.held?_lent hmetrics hname)
  rw [Operation.answer, Operation.after, Operation.program, Program.runOn_bind, timestamps,
    timestampGetters_eq, Program.runOn_bind, hdates]
  simp only [Program.runOn, hmillis, hsame', hnamed, and_self]

/-! ### What is kept -/

variable {c c' : Custody σ Int} {e : TimeEvent} {es : List TimeEvent}

/-- **A step keeps the client's dates, and what the library keeps but for a field that is set.** -/
theorem serves_and_kept_of_step (hlib : CopiesTimes lib isMetrics times)
    (h : TimeStep lib isMetrics times c e c')
    (hc : (times c.library).Serves Eq c.mine) :
    (times c'.library).Serves Eq c'.mine ∧
      ∀ field,
        (times c'.library).kept field = (e.givenTo? field).or ((times c.library).kept field) := by
  cases h with
  | create hanswer hnull hv =>
      have hmakes := Stock.makes_of_answer times rfl (hlib.create c.library) hanswer
      exact ⟨hc.of_makes hmakes hnull fun held hheld _ => Option.some.inj (hv.symm.trans hheld),
        fun field => congrFun hmakes.kept_eq field⟩
  | refuse hanswer =>
      have hmakes := Stock.makes_of_answer times rfl (hlib.create c.library) hanswer
      rw [hmakes.eq_of_refused]
      exact ⟨hc, fun field => rfl⟩
  | @change a v w hmine hv =>
      obtain ⟨hlent, held, hobject, -⟩ := hc a w hmine
      have hput :
          times ((Operation.direct dateSetter [.handle a, .int v]).after lib c.library) = _ :=
        hlib.change c.library a v held hobject hlent hv
      rw [hput]
      exact ⟨hc.put hlent rfl, fun field => rfl⟩
  | @destroy a w hmine =>
      obtain ⟨hlent, held, hobject, -⟩ := hc a w hmine
      have hput : times ((Operation.direct dateDestroyer [.handle a]).after lib c.library) = _ :=
        hlib.destroy c.library a held hobject hlent
      rw [hput]
      exact ⟨hc.drop, fun field => rfl⟩
  | @set metrics a name v hmetrics hname hv =>
      -- the field keeps the milliseconds in a date of its own, so no date of the client is
      -- concerned
      have hkeeps := hlib.set c.library metrics name a v hmetrics hname hv
      rw [(functionOf_timestamps hname).1]
      refine ⟨hc.of_keeps hkeeps, fun field => (congrFun hkeeps.kept_eq field).trans ?_⟩
      rw [TimeEvent.givenTo?, Function.update_apply]
      by_cases hfield : (metrics, name) = field
      · rw [if_pos hfield, if_pos hfield.symm, Option.some_or]
      · rw [if_neg hfield, if_neg (Ne.symm hfield), Option.none_or]
  | @read a v hv =>
      rw [(hlib.answer_dateTimeMillis (Or.inr ⟨v, hv⟩)).2]
      exact ⟨hc, fun field => rfl⟩
  | readAll hmetrics =>
      rw [(hlib.answer_timestamps hmetrics c.library).2]
      exact ⟨hc, fun field => rfl⟩

/-- **What the library keeps in the end** is what fields were last set to, and what it kept at first
in the others. -/
theorem serves_and_kept_of_steps (hlib : CopiesTimes lib isMetrics times)
    (h : Steps (TimeStep lib isMetrics times) c es c') (hc : (times c.library).Serves Eq c.mine) :
    (times c'.library).Serves Eq c'.mine ∧
      ∀ field, (times c'.library).kept field =
        (givenTo field es).getLast?.or ((times c.library).kept field) := by
  refine h.invariant (fun es c' => (times c'.library).Serves Eq c'.mine ∧
    ∀ field, (times c'.library).kept field =
      (givenTo field es).getLast?.or ((times c.library).kept field)) ⟨hc, fun field => rfl⟩ ?_
  rintro es s e s' ⟨hs, hkept⟩ hstep
  obtain ⟨hs', hkept'⟩ := hlib.serves_and_kept_of_step hstep hs
  refine ⟨hs', fun field => ?_⟩
  rw [hkept', hkept, getLast?_givenTo_concat, Option.or_assoc]

end CopiesTimes

section Main

variable {σ : Type} {lib : Machine σ} {isMetrics : Address → Prop} {times : σ → Times}

/-- **Each point in time of metrics is the one that was last given under its name.** Let a library
copy times. The operations whose answers stand beside the names are those that get the points in
time of these names, one by one, and so are the operations that get and set; each calls the function
that is bound to the symbol of its name, and so do those for dates. Whatever a client does with its
dates and with metrics, its dates read as what it gave them; and metrics of which nothing was set at
first have thirteen points in time, under the names in their order, each with the milliseconds that
the date had with which the point in time of that name was last set, and with none if it was never
set. To set one changes no other, of these metrics or of others. -/
theorem timestamps_are_last_given (hlib : CopiesTimes lib isMetrics times) :
    timestampGetters = timestampNames.map (fun name => "metrics_" ++ name ++ "_get") ∧
    timestampAccessors = timestampNames.map (fun name =>
      ("metrics_" ++ name ++ "_get", "metrics_" ++ name ++ "_set")) ∧
    (∀ name ∈ timestampNames,
      Symbol.slot? ("metrics_" ++ name ++ "_set") = some (timestampSetterOf name) ∧
        Symbol.slot? ("metrics_" ++ name ++ "_get") = some (timestampGetterOf name)) ∧
    (∀ slot ∈ [dateMaker, dateDestroyer, dateSetter, dateGetter],
      Symbol.slot? slot.operation = some slot) ∧
    (∀ (s : σ) (a : Address) (v : Int), a ≠ nullHandle → (times s).object a = some v →
      (Operation.dateTimeMillis a).answer lib s = .millis (some v)) ∧
    (∀ (c : Custody σ Int) (es : List TimeEvent) (c' : Custody σ Int),
      (times c.library).Serves Eq c.mine → Steps (TimeStep lib isMetrics times) c es c' →
      (times c'.library).Serves Eq c'.mine ∧
      ∀ metrics, isMetrics metrics →
        (∀ name ∈ timestampNames, (times c.library).kept (metrics, name) = none) →
        (Operation.timestamps metrics).answer lib c'.library =
          .timestamps
            (timestampNames.map fun name => (name, (givenTo (metrics, name) es).getLast?))) ∧
    ∀ (c c' : Custody σ Int) (metrics : Address) (name : String) (v : Int),
      (times c.library).Serves Eq c.mine → TimeStep lib isMetrics times c (.set metrics name v) c' →
      ∀ other, isMetrics other → ∀ ts,
        (Operation.timestamps other).answer lib c.library = .timestamps ts →
        (Operation.timestamps other).answer lib c'.library = .timestamps
          (ts.map fun t => if (other, t.1) = (metrics, name) then (t.1, some v) else t) := by
  refine ⟨timestampGetters_eq, timestampAccessors_eq, slot?_timestamps, slot?_dates,
    fun s a v hnull hv => ?_, fun c es c' hc h => ?_, fun c c' metrics name v hc h => ?_⟩
  · rw [(hlib.answer_dateTimeMillis (Or.inr ⟨v, hv⟩)).1, Stock.held?, if_neg hnull, hv]
  · obtain ⟨hserves, hkept⟩ := hlib.serves_and_kept_of_steps h hc
    refine ⟨hserves, fun metrics hmetrics hnone => ?_⟩
    rw [(hlib.answer_timestamps hmetrics c'.library).1]
    refine congrArg Result.timestamps (List.map_congr_left fun name hname => ?_)
    rw [hkept, hnone name hname, Option.or_none]
  · intro other hother ts hts
    rw [(hlib.answer_timestamps hother c.library).1, Result.timestamps.injEq] at hts
    rw [(hlib.answer_timestamps hother c'.library).1, ← hts, List.map_map]
    refine congrArg Result.timestamps (List.map_congr_left fun n _ => ?_)
    rw [(hlib.serves_and_kept_of_step h hc).2, Function.comp_apply, TimeEvent.givenTo?]
    by_cases hfield : (other, n) = (metrics, name)
    · rw [if_pos hfield, if_pos hfield.symm, Option.some_or]
    · rw [if_neg hfield, if_neg (Ne.symm hfield), Option.none_or]

end Main

/-! ### A library that copies times -/

/-- What the functions for dates and points in time do. -/
inductive TimeCall where
  | create
  | destroy
  | change
  | read
  | set (name : String)
  | get (name : String)
deriving DecidableEq

/-- The symbols of these functions. -/
def timeCalls : List (String × TimeCall) :=
  [(dateMaker.symbol, .create), (dateDestroyer.symbol, .destroy), (dateSetter.symbol, .change),
    (dateGetter.symbol, .read)] ++
  timestampNames.map (fun name => ((timestampSetterOf name).symbol, .set name)) ++
  timestampNames.map fun name => ((timestampGetterOf name).symbol, .get name)

theorem lookup_timeCalls : ∀ c ∈ timeCalls, timeCalls.lookup c.1 = some c.2 := by
  decide +kernel

/-- The dates of clients, the address that the next one gets, and the fields of metrics. -/
structure DateLibrary where
  next : Address
  dates : Address → Option Int
  fields : Field → Option Int

namespace DateLibrary

/-- The metrics that there are. -/
def IsMetrics (a : Address) : Prop := a = 1 ∨ a = 2

/-- Their fields. -/
def allFields : List Field :=
  [1, 2].flatMap fun metrics => timestampNames.map fun name => (metrics, name)

/-- Where the date of a field stands. -/
def place (field : Field) : Address :=
  UInt64.ofNat (16 * field.1.toNat + timestampNames.idxOf field.2)

/-- The field whose date stands at an address. -/
def fieldAt? (a : Address) : Option Field := allFields.find? fun field => place field = a

theorem fieldAt?_place :
    ∀ field ∈ allFields, fieldAt? (place field) = some field ∧ place field ≠ nullHandle := by
  decide +kernel

theorem mem_allFields {metrics : Address} {name : String} (hmetrics : IsMetrics metrics)
    (hname : name ∈ timestampNames) : (metrics, name) ∈ allFields := by
  rcases hmetrics with rfl | rfl <;> simp [allFields, hname]

/-- What there is of times. -/
def times (s : DateLibrary) : Times where
  object a := (fieldAt? a).elim (s.dates a) s.fields
  lent field := if field ∈ allFields ∧ (s.fields field).isSome then place field else nullHandle
  kept := s.fields

/-- What a function does, and what it answers. -/
def respond (s : DateLibrary) (args : List Word) : TimeCall → DateLibrary × Word
  | .create =>
    if s.next = nullHandle ∨ (fieldAt? s.next).isSome ∨ (s.dates s.next).isSome then
      (s, .handle nullHandle)
    else
      ({ s with next := s.next + 1, dates := Function.update s.dates s.next (some 0) },
        .handle s.next)
  | .destroy => ({ s with dates := Function.update s.dates (Simulation.owner args) none }, .unit)
  | .change =>
    let millis := (Simulation.argument args 1).number
    ({ s with dates := Function.update s.dates (Simulation.owner args) (some millis) }, .unit)
  | .read => (s, .int ((s.times.object (Simulation.owner args)).getD 0))
  | .set name =>
    let millis := s.times.object (Simulation.argument args 1).address
    ({ s with fields := Function.update s.fields (Simulation.owner args, name) millis }, .unit)
  | .get name => (s, .handle (s.times.lent (Simulation.owner args, name)))

/-- The library as a state machine. -/
def machine : Machine DateLibrary := Program.tableMachine timeCalls respond

theorem machine_eq (symbol : String) (call : TimeCall) (h : (symbol, call) ∈ timeCalls)
    (args : List Word)
    (s : DateLibrary) : machine symbol args s = s.respond args call :=
  Program.tableMachine_eq lookup_timeCalls respond h args s

theorem machine_setter {name : String} (hname : name ∈ timestampNames) (args : List Word)
    (s : DateLibrary) :
    machine (timestampSetterOf name).symbol args s = s.respond args (.set name) :=
  machine_eq _ _ (List.mem_append_left _ (List.mem_append_right _ (List.mem_map_of_mem hname))) args
  s

theorem machine_getter {name : String} (hname : name ∈ timestampNames) (args : List Word)
    (s : DateLibrary) :
    machine (timestampGetterOf name).symbol args s = s.respond args (.get name) :=
  machine_eq _ _ (List.mem_append_right _ (List.mem_map_of_mem hname)) args s

variable {s : DateLibrary} {a : Address}

theorem object_times (s : DateLibrary) (a : Address) :
    s.times.object a = (fieldAt? a).elim (s.dates a) s.fields :=
  rfl

theorem lent_times (s : DateLibrary) (field : Field) :
    s.times.lent field = if field ∈ allFields ∧ (s.fields field).isSome then place field
      else nullHandle :=
  rfl

/-- The null handle is lent for whatever is no field. -/
theorem isLent_nullHandle (s : DateLibrary) : s.times.IsLent nullHandle := by
  have hno : (0, "") ∉ allFields := by decide +kernel
  refine ⟨(0, ""), ?_⟩
  rw [lent_times, if_neg fun h => hno h.1]

/-- Where a date of the library stands, none is lent but that one. -/
theorem fieldAt?_of_isLent (h : s.times.IsLent a) (hnull : a ≠ nullHandle) : fieldAt? a ≠ none := by
  obtain ⟨field, rfl⟩ := h
  by_cases hlent : field ∈ allFields ∧ (s.fields field).isSome
  · rw [lent_times, if_pos hlent, (fieldAt?_place field hlent.1).1]
    exact Option.some_ne_none field
  · rw [lent_times, if_neg hlent] at hnull
    exact absurd rfl hnull

/-- A date that is alive and not lent is a client's. -/
theorem fieldAt?_eq_none {v : Int} (hobject : s.times.object a = some v)
    (hlent : ¬ s.times.IsLent a) : fieldAt? a = none := by
  cases hfield : fieldAt? a with
  | none => rfl
  | some field =>
      have hmem : field ∈ allFields := List.mem_of_find?_eq_some hfield
      have hplace := List.find?_some hfield
      rw [object_times, hfield, Option.elim_some] at hobject
      refine absurd ⟨field, ?_⟩ hlent
      rw [lent_times, if_pos ⟨hmem, Option.isSome_of_eq_some hobject⟩]
      exact of_decide_eq_true hplace

/-- A client's date holds something from now on, or is no longer alive. -/
theorem times_update (s : DateLibrary) (hfield : fieldAt? a = none) (next : Address)
    (held : Option Int) :
    times { s with next := next, dates := Function.update s.dates a held } =
      s.times.put a held := by
  refine congrArg (fun object => Stock.mk object s.times.lent s.fields) (funext fun b => ?_)
  by_cases hb : b = a
  · subst hb
    simp [hfield]
  · simp [hb, object_times]

/-- **This library copies times.** -/
theorem copiesTimes_machine : CopiesTimes machine IsMetrics times where
  create s := by
    rw [machine_eq dateMaker.symbol .create (by decide +kernel), respond]
    by_cases h : s.next = nullHandle ∨ (fieldAt? s.next).isSome ∨ (s.dates s.next).isSome
    · rw [if_pos h]
      exact .refused
    · rw [if_neg h]
      obtain ⟨hnull, hfield, hnone⟩ :
          s.next ≠ nullHandle ∧ fieldAt? s.next = none ∧ s.dates s.next = none := by
        simpa using h
      have hobject : s.times.object s.next = none := by
        rw [object_times, hfield]
        exact hnone
      have hput := times_update s hfield (s.next + 1) (some 0)
      exact hput ▸ .made hnull hobject (fun hlent => fieldAt?_of_isLent hlent hnull hfield) trivial
  change s a v w hobject hlent hv := by
    rw [machine_eq dateSetter.symbol .change (by decide +kernel)]
    exact times_update s (fieldAt?_eq_none hobject hlent) s.next (some v)
  destroy s a w hobject hlent := by
    rw [machine_eq dateDestroyer.symbol .destroy (by decide +kernel)]
    exact times_update s (fieldAt?_eq_none hobject hlent) s.next none
  read s a v hobject := by
    rw [machine_eq dateGetter.symbol .read (by decide +kernel)]
    refine ⟨?_, rfl⟩
    change (s.times.object a).getD 0 = v
    rw [hobject, Option.getD_some]
  set s metrics name a v hmetrics hname hobject := by
    rw [machine_setter hname]
    refine ⟨?_, fun b hsome hlent => ?_, fun b hsome hlent hlent' => ?_⟩
    · change Function.update s.fields (metrics, name) (s.times.object a) = _
      rw [hobject]
      rfl
    all_goals
      obtain ⟨w, hw⟩ := Option.ne_none_iff_exists'.1 hsome
      have hfield := fieldAt?_eq_none hw hlent
    · rw [object_times, object_times, hfield]
      rfl
    · refine fieldAt?_of_isLent hlent' (fun hnull => hlent ?_) hfield
      rw [hnull]
      exact s.isLent_nullHandle
  get s metrics name hmetrics hname := by
    rw [machine_getter hname]
    exact ⟨rfl, rfl⟩
  lends s metrics name v hmetrics hname hkept := by
    have hmem := mem_allFields hmetrics hname
    obtain ⟨hplace, hnull⟩ := fieldAt?_place _ hmem
    have hlent : s.times.lent (metrics, name) = place (metrics, name) :=
      if_pos ⟨hmem, Option.isSome_of_eq_some hkept⟩
    rw [hlent]
    refine ⟨hnull, ?_⟩
    rw [object_times, hplace]
    exact hkept
  lends_none s metrics name hmetrics hname hkept := if_neg fun h => by
    have hsome := h.2
    rw [show s.fields (metrics, name) = none from hkept] at hsome
    cases hsome

/-- A library with no dates, where nothing was set. -/
def unset : DateLibrary := ⟨100, fun _ => none, fun _ => none⟩

end DateLibrary

/-- What a client may do with this library. -/
abbrev DateStep : Custody DateLibrary Int → TimeEvent → Custody DateLibrary Int → Prop :=
  TimeStep DateLibrary.machine DateLibrary.IsMetrics DateLibrary.times

/-- Points in time that are none but for the two of a push. -/
def pushedAt (start stop : Option Int) : List (String × Option Int) :=
  [("request_start", none), ("dns_start", none), ("dns_end", none), ("connect_start", none),
    ("connect_end", none), ("ssl_start", none), ("ssl_end", none), ("sending_start", none),
    ("sending_end", none), ("push_start", start), ("push_end", stop), ("response_start", none),
    ("request_end", none)]

/-- A date that is changed after the start of a push was set to it, and destroyed after the end
was. -/
theorem later_change_not_shown :
    ∃ c c' c'' : Custody DateLibrary Int,
      Steps DateStep ⟨.unset, fun _ => none⟩
        [.other, .other, .set 1 "push_start" 5, .other, .set 2 "push_start" 7] c ∧
      DateStep c (.set 1 "push_end" 7) c' ∧ DateStep c' .other c'' ∧
      (Operation.dateTimeMillis 100).answer DateLibrary.machine c.library = .millis (some 7) ∧
      (Operation.timestamps 1).answer DateLibrary.machine c.library =
        .timestamps (pushedAt (some 5) none) ∧
      (Operation.timestamps 1).answer DateLibrary.machine c'.library =
        .timestamps (pushedAt (some 5) (some 7)) ∧
      (Operation.timestamps 1).answer DateLibrary.machine c''.library =
        .timestamps (pushedAt (some 5) (some 7)) := by
  have hmade :
      (Operation.direct dateMaker []).answer DateLibrary.machine .unset = .value (.handle 100) := by
    have hword : (DateLibrary.machine dateMaker.symbol [] .unset).2 = .handle 100 := by
      decide +kernel
    rw [answer_direct, List.map_nil, hword]
    rfl
  obtain ⟨c, hc, hmine⟩ : ∃ c, Steps DateStep ⟨.unset, fun _ => none⟩
      [.other, .other, .set 1 "push_start" 5, .other, .set 2 "push_start" 7] c ∧
      c.mine 100 = some 7 :=
    ⟨_, .cons (.create _ (v := 0) hmade (by decide) (by decide +kernel)) <|
      .cons (.change _ (a := 100) (v := 5) (w := 0) (by decide) (by decide)) <|
      .cons (.set _ (a := 100) (Or.inl rfl) (by decide) (by decide +kernel)) <|
      .cons (.change _ (a := 100) (v := 7) (w := 5) (by decide) (by decide)) <|
      .cons (.set _ (a := 100) (Or.inr rfl) (by decide) (by decide +kernel)) <| .refl _, by decide⟩
  obtain ⟨-, -, -, -, hmillis, hrun, hframe⟩ :=
    timestamps_are_last_given DateLibrary.copiesTimes_machine
  have hstart : (DateLibrary.times .unset).Serves Eq fun _ => none := Stock.Serves.none _ _
  obtain ⟨hserves, hanswer⟩ := hrun _ _ c hstart hc
  obtain ⟨-, held, hobject, rfl⟩ := hserves 100 7 hmine
  obtain ⟨c', hset, hmine'⟩ : ∃ c', DateStep c (.set 1 "push_end" 7) c' ∧ c'.mine 100 = some 7 :=
    ⟨_, .set c (Or.inl rfl) (by decide) hobject, hmine⟩
  obtain ⟨c'', hdestroy⟩ : ∃ c'', DateStep c' .other c'' := ⟨_, .destroy c' hmine'⟩
  have hfirst := (hanswer 1 (Or.inl rfl) fun _ _ => rfl).trans (congrArg Result.timestamps
    (show _ = pushedAt (some 5) none by decide +kernel))
  have hsecond := (hframe c c' 1 "push_end" 7 hserves hset 1 (Or.inl rfl) _ hfirst).trans
    (congrArg Result.timestamps (show _ = pushedAt (some 5) (some 7) by decide +kernel))
  have hlater := hrun _ _ c'' hstart (hc.append (.cons hset (.one hdestroy)))
  have hthird := (hlater.2 1 (Or.inl rfl) fun _ _ => rfl).trans
    (congrArg Result.timestamps (show _ = pushedAt (some 5) (some 7) by decide +kernel))
  exact ⟨c, c', c'', hc, hset, hdestroy, hmillis _ 100 7 (by decide) hobject, hfirst, hsecond,
    hthird⟩

end LateBinding.Client
