import Mathlib.Data.List.DropRight
import LateBinding.Proofs.Client.Custody
import LateBinding.Proofs.Native.Returned
import LateBinding.Proofs.Steps
import LateBinding.Proofs.Symbol.Distinct
import LateBinding.Simulation.Objects

/-!
**The headers of a response are all read, and no header is read that is not there.**

A response has a list of headers, which the library lends one by one. What it does for an index
outside the list is undefined, so the indices asked for must be exactly those of the list: the size
is asked for once, and then **each index below it, once and in order**. Whatever memory is behind
the texts of a header, it is read as every text is.

Where a library appends copies of headers to the list, a client may change or destroy a header that
it has added. The list has then **what was added since it was last cleared**, as it was when it was
added.

Main definitions:

* `LateBinding.Client.ShowsHeaders` — a library that shows the headers of responses;
* `LateBinding.Client.CopiesHeaders` — one to which a client adds copies of headers;
* `LateBinding.Client.HeaderStep` — **what a client may do with its headers and with responses**;
* `LateBinding.Client.addedSinceClear` — the headers added to a response since it was last cleared.

Main results:

* `LateBinding.Client.ShowsHeaders.answer_responseHeaders` — the headers of a response, and the
  calls for them;
* `LateBinding.Client.CopiesHeaders.serves_and_shown_of_steps` — what a response shows in the end;
* `LateBinding.Client.response_headers_are_all_read` — **all of it together**.
-/

set_option autoImplicit false

namespace LateBinding.Client

open Native (Address Word Value CString returned)
open LateBinding.Symbol (Slot)
open Program (Machine)

/-! ### The functions -/

/-- The functions that work on headers. -/
def headerMaker : Slot :=
  ⟨"http_header", "http_header_create", "Cronet_HttpHeader_Create", [], .handle .httpHeader⟩

def headerDestroyer : Slot :=
  ⟨"http_header", "http_header_destroy", "Cronet_HttpHeader_Destroy", [.handle .httpHeader], .unit⟩

def headerNameSetter : Slot :=
  ⟨"http_header", "http_header_name_set", "Cronet_HttpHeader_name_set",
    [.handle .httpHeader, .text], .unit⟩

def headerValueSetter : Slot :=
  ⟨"http_header", "http_header_value_set", "Cronet_HttpHeader_value_set",
    [.handle .httpHeader, .text], .unit⟩

def headerNameGetter : Slot :=
  ⟨"http_header", "http_header_name_get", "Cronet_HttpHeader_name_get", [.handle .httpHeader],
    .text⟩

def headerValueGetter : Slot :=
  ⟨"http_header", "http_header_value_get", "Cronet_HttpHeader_value_get", [.handle .httpHeader],
    .text⟩

/-- The functions that work on the headers of a response. -/
def headerAdder : Slot :=
  ⟨"url_response_info", "url_response_info_all_headers_list_add",
    "Cronet_UrlResponseInfo_all_headers_list_add", [.handle .urlResponseInfo, .handle .httpHeader],
    .unit⟩

def headerCounter : Slot :=
  ⟨"url_response_info", "url_response_info_all_headers_list_size",
    "Cronet_UrlResponseInfo_all_headers_list_size", [.handle .urlResponseInfo], .uint32⟩

def headerFinder : Slot :=
  ⟨"url_response_info", "url_response_info_all_headers_list_at",
    "Cronet_UrlResponseInfo_all_headers_list_at", [.handle .urlResponseInfo, .uint32],
    .handle .httpHeader⟩

def headerClearer : Slot :=
  ⟨"url_response_info", "url_response_info_all_headers_list_clear",
    "Cronet_UrlResponseInfo_all_headers_list_clear", [.handle .urlResponseInfo], .unit⟩

/-- All of them. -/
def headerSlots : List Slot :=
  [headerMaker, headerDestroyer, headerNameSetter, headerValueSetter, headerNameGetter,
    headerValueGetter] ++
    [headerAdder, headerCounter, headerFinder, headerClearer]

theorem slot?_headerSlots : ∀ slot ∈ headerSlots, Symbol.slot? slot.operation = some slot := by
  have hheaders : [headerMaker, headerDestroyer, headerNameSetter, headerValueSetter,
      headerNameGetter, headerValueGetter] = Symbol.httpHeaderSlots := rfl
  have hinfos :
      [headerAdder, headerCounter, headerFinder, headerClearer] ⊆ Symbol.urlResponseInfoSlots := by
    simp only [List.cons_subset, List.nil_subset, and_true]
    exact ⟨List.mem_of_getElem? (i := 6) rfl, List.mem_of_getElem? (i := 17) rfl,
      List.mem_of_getElem? (i := 18) rfl, List.mem_of_getElem? (i := 19) rfl⟩
  obtain ⟨hinfoSubset, hheaderSubset, -, -⟩ := Symbol.groups_subset
  intro slot hslot
  rcases List.mem_append.1 hslot with h | h
  · exact Symbol.slot?_of_mem (hheaderSubset (hheaders ▸ h))
  · exact Symbol.slot?_of_mem (hinfoSubset (hinfos h))

/-! ### Texts of headers -/

/-- The texts of a header, each given by the memory behind its pointer. -/
structure HeaderTexts where
  name : Option (List UInt8)
  value : Option (List UInt8)
deriving DecidableEq

/-- What is read of them. -/
def HeaderTexts.read (texts : HeaderTexts) : String × String :=
  (Native.readCString texts.name, Native.readCString texts.value)

/-- What comes back of a header whose texts go out as C strings. -/
def passed (header : String × String) : String × String := (returned header.1, returned header.2)

/-- The texts are read as what comes back of a header. -/
structure HasTexts (header : String × String) (texts : HeaderTexts) : Prop where
  name : Native.readCString texts.name = returned header.1
  value : Native.readCString texts.value = returned header.2

theorem HasTexts.read_eq {header : String × String} {texts : HeaderTexts}
    (h : HasTexts header texts) : texts.read = passed header :=
  Prod.ext h.name h.value

/-- The texts of a header of which copies were kept. -/
def HeaderTexts.ofKept (header : String × String) : HeaderTexts :=
  ⟨some (CString.ofText header.1).kept, some (CString.ofText header.2).kept⟩

theorem hasTexts_ofKept (header : String × String) : HasTexts header (.ofKept header) :=
  ⟨Native.readCString_kept_eq header.1, Native.readCString_kept_eq header.2⟩

theorem HasTexts.setName {header : String × String} {texts : HeaderTexts}
    (h : HasTexts header texts) (name : String) :
    HasTexts (name, header.2) { texts with name := some (CString.ofText name).kept } :=
  ⟨Native.readCString_kept_eq name, h.value⟩

theorem HasTexts.setValue {header : String × String} {texts : HeaderTexts}
    (h : HasTexts header texts) (value : String) :
    HasTexts (header.1, value) { texts with value := some (CString.ofText value).kept } :=
  ⟨h.name, Native.readCString_kept_eq value⟩

/-! ### Libraries with headers -/

/-- Headers with their texts, and the lists of headers of responses. A response lends a header at an
index. -/
abbrev Headers := Stock (Address × Nat) HeaderTexts (Address → List HeaderTexts)

/-- What the headers of a response are read as. -/
def Headers.shown (headers : Headers) (info : Address) : List (String × String) :=
  (headers.kept info).map HeaderTexts.read

/-- What responses show where the library keeps other headers of one of them. -/
theorem Headers.shown_of_keeps {s t : Headers} {info : Address} {list : List HeaderTexts}
    (h : s.Keeps (Function.update s.kept info list) t) (other : Address) :
    t.shown other = if info = other then list.map HeaderTexts.read else s.shown other := by
  rw [Headers.shown, h.kept_eq, Function.update_apply, apply_ite (List.map HeaderTexts.read)]
  exact if_congr eq_comm rfl rfl

/-- **A library shows the headers of responses**, where `headers` is what it has of them in a state.
It tells the size of the list, which is an unsigned number of 32 bits, lends the header at each
index below it, and gives the texts of headers, all without changing anything. Nothing is said of
other indices. -/
structure ShowsHeaders {σ : Type} (lib : Machine σ) (isInfo : Address → Prop)
    (headers : σ → Headers) : Prop where
  size : ∀ s info, isInfo info →
    (lib headerCounter.symbol [.handle info] s).2.number = ((headers s).kept info).length ∧
      ((headers s).kept info).length < 4294967296 ∧
      headers (lib headerCounter.symbol [.handle info] s).1 = headers s
  index : ∀ s info (i : Nat), isInfo info → i < ((headers s).kept info).length →
    (lib headerFinder.symbol [.handle info, .int i] s).2.address = (headers s).lent (info, i) ∧
      headers (lib headerFinder.symbol [.handle info, .int i] s).1 = headers s
  lends : ∀ s info i texts, isInfo info → ((headers s).kept info)[i]? = some texts →
    (headers s).object ((headers s).lent (info, i)) = some texts
  name : ∀ s a texts, (headers s).object a = some texts →
    (lib headerNameGetter.symbol [.handle a] s).2.memory = texts.name ∧
      headers (lib headerNameGetter.symbol [.handle a] s).1 = headers s
  value : ∀ s a texts, (headers s).object a = some texts →
    (lib headerValueGetter.symbol [.handle a] s).2.memory = texts.value ∧
      headers (lib headerValueGetter.symbol [.handle a] s).1 = headers s

/-- **A library copies headers.** Headers are made with empty texts, which are set to copies of
texts, and destroyed; this does not change what responses have, and does not concern the headers
that they lend. A response appends a header with the texts of the one that is added, as long as
their number has 32 bits, and has none when it is cleared. -/
structure CopiesHeaders {σ : Type} (lib : Machine σ) (isInfo : Address → Prop)
    (headers : σ → Headers) : Prop where
  create : ∀ s, (headers s).Makes (HasTexts ("", "")) (lib headerMaker.symbol [] s).2.address
    (headers (lib headerMaker.symbol [] s).1)
  setName : ∀ s a texts name, (headers s).object a = some texts → ¬ (headers s).IsLent a →
    headers (lib headerNameSetter.symbol [.handle a, (CString.ofText name).toWord] s).1 =
      (headers s).put a (some { texts with name := some (CString.ofText name).kept })
  setValue : ∀ s a texts value, (headers s).object a = some texts → ¬ (headers s).IsLent a →
    headers (lib headerValueSetter.symbol [.handle a, (CString.ofText value).toWord] s).1 =
      (headers s).put a (some { texts with value := some (CString.ofText value).kept })
  destroy : ∀ s a texts, (headers s).object a = some texts → ¬ (headers s).IsLent a →
    headers (lib headerDestroyer.symbol [.handle a] s).1 = (headers s).put a none
  add : ∀ s info a texts, isInfo info → (headers s).object a = some texts →
    ((headers s).kept info).length + 1 < 4294967296 →
    (headers s).Keeps (Function.update (headers s).kept info ((headers s).kept info ++ [texts]))
      (headers (lib headerAdder.symbol [.handle info, .handle a] s).1)
  clear : ∀ s info, isInfo info →
    (headers s).Keeps (Function.update (headers s).kept info [])
      (headers (lib headerClearer.symbol [.handle info] s).1)

/-! ### Reading -/

/-- The calls for the header at an index: it is asked for, and then for its texts. -/
def headerCalls (lent : Address × Nat → Address) (info : Address) (i : Nat) :
    List (String × List Word) :=
  [(headerFinder.symbol, [.handle info, .int i]),
    (headerNameGetter.symbol, [.handle (lent (info, i))]),
    (headerValueGetter.symbol, [.handle (lent (info, i))])]

/-- Among the calls for some headers is none for the size. -/
theorem filter_counter_headerCalls (lent : Address × Nat → Address) (info : Address)
    (indices : List Nat) :
    (indices.flatMap (headerCalls lent info)).filter (·.1 = headerCounter.symbol) = [] := by
  have hone : ∀ i, (headerCalls lent info i).filter (·.1 = headerCounter.symbol) = [] := fun i => by
    simp [headerCalls, headerFinder, headerNameGetter, headerValueGetter, headerCounter]
  simp [List.filter_flatMap, hone]

/-- Each of the headers is asked for once. -/
theorem filter_finder_headerCalls (lent : Address × Nat → Address) (info : Address)
    (indices : List Nat) :
    (indices.flatMap (headerCalls lent info)).filter (·.1 = headerFinder.symbol) =
      indices.map fun i => (headerFinder.symbol, [.handle info, .int i]) := by
  have hone : ∀ i, (headerCalls lent info i).filter (·.1 = headerFinder.symbol) =
      [(headerFinder.symbol, [.handle info, .int i])] := fun i => by
    simp [headerCalls, headerFinder, headerNameGetter, headerValueGetter]
  simp only [List.filter_flatMap, hone, List.map_eq_flatMap]

/-- The program for a header by the functions that it calls. -/
theorem headerAt_eq (info : Address) (i : Nat) : headerAt info i = (do
    let h ← Program.native headerFinder.symbol [.handle info, .int i]
    let name ← Program.native headerNameGetter.symbol [.handle h.address]
    let value ← Program.native headerValueGetter.symbol [.handle h.address]
    .done (Native.readCString name.memory, Native.readCString value.memory)) :=
  rfl

/-- The program for all headers by the function that it calls first. -/
theorem responseHeaders_eq (info : Address) : responseHeaders info = (do
    let size ← Program.native headerCounter.symbol [.handle info]
    headersAt info (List.range size.number.toNat)) :=
  rfl

namespace ShowsHeaders

variable {σ : Type} {lib : Machine σ} {isInfo : Address → Prop} {headers : σ → Headers}
  {info : Address} {s : σ}

/-- The header at an index of the list. -/
theorem runOn_headerAt (hlib : ShowsHeaders lib isInfo headers) (hinfo : isInfo info) {i : Nat}
    {texts : HeaderTexts} (htexts : ((headers s).kept info)[i]? = some texts) :
    ((headerAt info i).runOn lib s).1 = texts.read ∧
      ((headerAt info i).runOn lib s).2.1 = headerCalls (headers s).lent info i ∧
      headers ((headerAt info i).runOn lib s).2.2 = headers s := by
  obtain ⟨hi, -⟩ := List.getElem?_eq_some_iff.1 htexts
  have hobject := hlib.lends s info i texts hinfo htexts
  obtain ⟨haddress, hsame⟩ := hlib.index s info i hinfo hi
  rw [headerCalls]
  generalize (headers s).lent (info, i) = a at hobject haddress ⊢
  rw [← hsame] at hobject
  obtain ⟨hname, hsame'⟩ := hlib.name _ a texts hobject
  rw [← hsame'] at hobject
  obtain ⟨hvalue, hsame''⟩ := hlib.value _ a texts hobject
  simp only [headerAt_eq, Program.runOn_bind, Program.runOn_native, Program.runOn, haddress, hname,
    hvalue, hsame'', hsame', hsame, List.append_nil, List.cons_append, List.nil_append,
    HeaderTexts.read, and_self]

/-- The headers at some indices of the list. -/
theorem runOn_headersAt (hlib : ShowsHeaders lib isInfo headers) (hinfo : isInfo info)
    {indices : List Nat} (hindices : ∀ i ∈ indices, i < ((headers s).kept info).length) :
    ((headersAt info indices).runOn lib s).1.map some =
        indices.map (fun i => ((headers s).kept info)[i]?.map HeaderTexts.read) ∧
      ((headersAt info indices).runOn lib s).2.1 =
        indices.flatMap (headerCalls (headers s).lent info) ∧
      headers ((headersAt info indices).runOn lib s).2.2 = headers s := by
  induction indices generalizing s with
  | nil => exact ⟨rfl, rfl, rfl⟩
  | cons i indices ih =>
      obtain ⟨hfirst, hrest⟩ := List.forall_mem_cons.1 hindices
      have htexts := List.getElem?_eq_getElem hfirst
      obtain ⟨hread, hcalls, hsame⟩ := hlib.runOn_headerAt hinfo htexts
      rw [← hsame] at hrest
      obtain ⟨hall, hcalls', hsame'⟩ := ih hrest
      rw [headersAt, Program.runOn_bind, Program.runOn_bind]
      simp only [Program.runOn, hread, hall, hcalls, hcalls', hsame, hsame', htexts, List.map_cons,
        List.flatMap_cons, Option.map_some, List.append_nil, and_self]

/-- **All headers of a response are read**, with one call for the size and the calls for each index
below it. -/
theorem runOn_responseHeaders (hlib : ShowsHeaders lib isInfo headers) (hinfo : isInfo info) :
    ((responseHeaders info).runOn lib s).1 = (headers s).shown info ∧
      ((responseHeaders info).runOn lib s).2.1 = (headerCounter.symbol, [.handle info]) ::
        (List.range ((headers s).kept info).length).flatMap (headerCalls (headers s).lent info) ∧
      headers ((responseHeaders info).runOn lib s).2.2 = headers s := by
  obtain ⟨hnumber, -, hsame⟩ := hlib.size s info hinfo
  have hindices :
      ∀ i ∈ List.range ((headers s).kept info).length, i < ((headers s).kept info).length :=
    fun i hi => List.mem_range.1 hi
  rw [← hsame] at hindices
  obtain ⟨hall, hcalls, hsame'⟩ := hlib.runOn_headersAt hinfo hindices
  rw [hsame] at hall hcalls hsame'
  -- the indices below the length lead through the whole list
  have hshown : (List.range ((headers s).kept info).length).map
      (fun i => ((headers s).kept info)[i]?.map HeaderTexts.read) =
        ((headers s).shown info).map some :=
    List.ext_getElem (by simp [Headers.shown]) fun i hi _ => by
      have hlt : i < ((headers s).kept info).length := by simpa using hi
      simp [Headers.shown, hlt]
  rw [hshown] at hall
  simp only [responseHeaders_eq, Program.runOn_bind, Program.runOn_native, hnumber,
    Int.toNat_natCast, hcalls, hsame', List.singleton_append, and_true]
  exact (List.map_inj_right fun _ _ => Option.some.inj).1 hall

theorem answer_responseHeaders (hlib : ShowsHeaders lib isInfo headers) (hinfo : isInfo info) :
    (Operation.responseHeaders info).answer lib s = .value (.headers ((headers s).shown info)) ∧
      (Operation.responseHeaders info).calls lib s = (headerCounter.symbol, [.handle info]) ::
        (List.range ((headers s).kept info).length).flatMap (headerCalls (headers s).lent info) ∧
      headers ((Operation.responseHeaders info).after lib s) = headers s := by
  obtain ⟨hread, hcalls, hsame⟩ := hlib.runOn_responseHeaders (s := s) hinfo
  rw [Operation.answer, Operation.calls, Operation.after, Operation.program, Program.runOn_bind,
    hread, hcalls]
  exact ⟨rfl, List.append_nil _, hsame⟩

end ShowsHeaders

/-! ### What a client does -/

/-- A header was added to a response, a response was cleared, or something else happened. -/
inductive HeaderEvent where
  | added (info : Address) (header : String × String)
  | cleared (info : Address)
  | other
deriving DecidableEq

namespace HeaderEvent

/-- The header that an event adds to a response. -/
def addedTo? (info : Address) : HeaderEvent → Option (String × String)
  | .added i header => if i = info then some header else none
  | _ => none

/-- What a response shows after an event. -/
def onto (info : Address) : HeaderEvent → List (String × String) → List (String × String)
  | .added i header, shown => if i = info then shown ++ [passed header] else shown
  | .cleared i, shown => if i = info then [] else shown
  | .other, shown => shown

end HeaderEvent

/-- **The headers added to a response since it was last cleared**, in order. -/
def addedSinceClear (info : Address) (es : List HeaderEvent) : List (String × String) :=
  (es.rtakeWhile (· ≠ .cleared info)).filterMap (HeaderEvent.addedTo? info)

/-- What a response still has of the headers that it had at first. -/
def leftOfFirst (info : Address) (es : List HeaderEvent) (first : List (String × String)) :
    List (String × String) :=
  if .cleared info ∈ es then [] else first

/-- An event goes on with what a response shows after those before it. -/
theorem onto_leftOfFirst_append (info : Address) (es : List HeaderEvent) (e : HeaderEvent)
    (first : List (String × String)) :
    e.onto info (leftOfFirst info es first ++ (addedSinceClear info es).map passed) =
      leftOfFirst info (es ++ [e]) first ++ (addedSinceClear info (es ++ [e])).map passed := by
  by_cases he : e = .cleared info
  · simp [he, HeaderEvent.onto, leftOfFirst, addedSinceClear]
  · have hleft : leftOfFirst info (es ++ [e]) first = leftOfFirst info es first := by
      simp [leftOfFirst, Ne.symm he]
    have hadded :
        addedSinceClear info (es ++ [e]) = addedSinceClear info es ++ (e.addedTo? info).toList := by
      rw [addedSinceClear, List.rtakeWhile_concat, if_pos (decide_eq_true he),
        List.filterMap_append]
      cases hadds : e.addedTo? info <;> simp [hadds, addedSinceClear]
    rw [hleft, hadded, List.map_append, ← List.append_assoc]
    cases e with
    | added i header => by_cases hi : i = info <;> simp [HeaderEvent.onto, HeaderEvent.addedTo?, hi]
    | cleared i =>
        have hi : i ≠ info := fun hi => he (congrArg HeaderEvent.cleared hi)
        simp [HeaderEvent.onto, HeaderEvent.addedTo?, hi]
    | other => simp [HeaderEvent.onto, HeaderEvent.addedTo?]

section Steps

variable {σ : Type}

/-- **What a client may do.** It makes headers, or is refused one; it sets the texts of the headers
that it has made, and destroys them; it adds any header that is alive to a response, clears
responses, and reads them. -/
inductive HeaderStep (lib : Machine σ) (isInfo : Address → Prop) (headers : σ → Headers) :
    Custody σ (String × String) → HeaderEvent → Custody σ (String × String) → Prop
  | create (c : Custody σ (String × String)) {a : Address}
      (hanswer : (Operation.direct headerMaker []).answer lib c.library = .value (.handle a))
      (hnull : a ≠ nullHandle) :
      HeaderStep lib isInfo headers c .other
        ⟨(Operation.direct headerMaker []).after lib c.library,
          Function.update c.mine a (some ("", ""))⟩
  | refuse (c : Custody σ (String × String))
      (hanswer :
        (Operation.direct headerMaker []).answer lib c.library = .value (.handle nullHandle)) :
      HeaderStep lib isInfo headers c .other
        ⟨(Operation.direct headerMaker []).after lib c.library, c.mine⟩
  | setName (c : Custody σ (String × String)) {a : Address} {header : String × String}
      (name : String) (hmine : c.mine a = some header) :
      HeaderStep lib isInfo headers c .other
        ⟨(Operation.direct headerNameSetter [.handle a, .text name]).after lib c.library,
          Function.update c.mine a (some (name, header.2))⟩
  | setValue (c : Custody σ (String × String)) {a : Address} {header : String × String}
      (value : String) (hmine : c.mine a = some header) :
      HeaderStep lib isInfo headers c .other
        ⟨(Operation.direct headerValueSetter [.handle a, .text value]).after lib c.library,
          Function.update c.mine a (some (header.1, value))⟩
  | destroy (c : Custody σ (String × String)) {a : Address} {header : String × String}
      (hmine : c.mine a = some header) :
      HeaderStep lib isInfo headers c .other
        ⟨(Operation.direct headerDestroyer [.handle a]).after lib c.library,
          Function.update c.mine a none⟩
  | add (c : Custody σ (String × String)) {info a : Address} {header : String × String}
      {texts : HeaderTexts} (hinfo : isInfo info)
      (hobject : (headers c.library).object a = some texts) (htexts : HasTexts header texts)
      (hroom : ((headers c.library).kept info).length + 1 < 4294967296) :
      HeaderStep lib isInfo headers c (.added info header)
        ⟨(Operation.direct headerAdder [.handle info, .handle a]).after lib c.library, c.mine⟩
  | clear (c : Custody σ (String × String)) {info : Address} (hinfo : isInfo info) :
      HeaderStep lib isInfo headers c (.cleared info)
        ⟨(Operation.direct headerClearer [.handle info]).after lib c.library, c.mine⟩
  | read (c : Custody σ (String × String)) {info : Address} (hinfo : isInfo info) :
      HeaderStep lib isInfo headers c .other
        ⟨(Operation.responseHeaders info).after lib c.library, c.mine⟩

end Steps

namespace CopiesHeaders

variable {σ : Type} {lib : Machine σ} {isInfo : Address → Prop} {headers : σ → Headers}
  {c c' : Custody σ (String × String)} {e : HeaderEvent} {es : List HeaderEvent}

/-- **A step keeps the client's headers, and changes what a response shows as its event says.** -/
theorem serves_and_shown_of_step (hshows : ShowsHeaders lib isInfo headers)
    (hlib : CopiesHeaders lib isInfo headers)
    (h : HeaderStep lib isInfo headers c e c') (hc : (headers c.library).Serves HasTexts c.mine) :
    (headers c'.library).Serves HasTexts c'.mine ∧
      ∀ info, (headers c'.library).shown info = e.onto info ((headers c.library).shown info) := by
  cases h with
  | create hanswer hnull =>
      have hmakes := Stock.makes_of_answer headers rfl (hlib.create c.library) hanswer
      exact ⟨hc.of_makes hmakes hnull fun _ _ hnew => hnew,
        fun info => congrArg (List.map HeaderTexts.read) (congrFun hmakes.kept_eq info)⟩
  | refuse hanswer =>
      have hmakes := Stock.makes_of_answer headers rfl (hlib.create c.library) hanswer
      rw [hmakes.eq_of_refused]
      exact ⟨hc, fun info => rfl⟩
  | @setName a header name hmine =>
      obtain ⟨hlent, texts, hobject, htexts⟩ := hc a header hmine
      have hput : headers
          ((Operation.direct headerNameSetter [.handle a, .text name]).after lib c.library) = _ :=
        hlib.setName c.library a texts name hobject hlent
      rw [hput]
      exact ⟨hc.put hlent (htexts.setName name), fun info => rfl⟩
  | @setValue a header value hmine =>
      obtain ⟨hlent, texts, hobject, htexts⟩ := hc a header hmine
      have hput : headers
          ((Operation.direct headerValueSetter [.handle a, .text value]).after lib c.library) = _ :=
        hlib.setValue c.library a texts value hobject hlent
      rw [hput]
      exact ⟨hc.put hlent (htexts.setValue value), fun info => rfl⟩
  | @destroy a header hmine =>
      obtain ⟨hlent, texts, hobject, -⟩ := hc a header hmine
      have hput :
          headers ((Operation.direct headerDestroyer [.handle a]).after lib c.library) = _ :=
        hlib.destroy c.library a texts hobject hlent
      rw [hput]
      exact ⟨hc.drop, fun info => rfl⟩
  | @add info a header texts hinfo hobject htexts hroom =>
      -- what is appended has the texts of now, which is why the event names the header as it is now
      have hkeeps := hlib.add c.library info a texts hinfo hobject hroom
      refine ⟨hc.of_keeps hkeeps, fun other => (Headers.shown_of_keeps hkeeps other).trans ?_⟩
      rw [HeaderEvent.onto, List.map_append, List.map_singleton, htexts.read_eq]
      by_cases hother : info = other
      · rw [if_pos hother, if_pos hother, hother]
        rfl
      · rw [if_neg hother, if_neg hother]
  | @clear info hinfo =>
      have hkeeps := hlib.clear c.library info hinfo
      exact ⟨hc.of_keeps hkeeps, Headers.shown_of_keeps hkeeps⟩
  | @read info hinfo =>
      rw [(hshows.answer_responseHeaders hinfo).2.2]
      exact ⟨hc, fun info => rfl⟩

/-- **What a response shows in the end** is what was added to it since it was last cleared, after
what it had at first if it was not cleared. -/
theorem serves_and_shown_of_steps (hshows : ShowsHeaders lib isInfo headers)
    (hlib : CopiesHeaders lib isInfo headers)
    (h : Steps (HeaderStep lib isInfo headers) c es c')
    (hc : (headers c.library).Serves HasTexts c.mine) :
    (headers c'.library).Serves HasTexts c'.mine ∧
      ∀ info, (headers c'.library).shown info =
        leftOfFirst info es ((headers c.library).shown info) ++
          (addedSinceClear info es).map passed := by
  refine h.invariant (fun es c' => (headers c'.library).Serves HasTexts c'.mine ∧
    ∀ info, (headers c'.library).shown info =
      leftOfFirst info es ((headers c.library).shown info) ++ (addedSinceClear info es).map passed)
    ⟨hc, fun info => (List.append_nil _).symm⟩ ?_
  rintro es s e s' ⟨hs, hshown⟩ hstep
  obtain ⟨hs', hshown'⟩ := hlib.serves_and_shown_of_step hshows hstep hs
  refine ⟨hs', fun info => ?_⟩
  rw [hshown', hshown, onto_leftOfFirst_append]

end CopiesHeaders

section Main

variable {σ : Type} {lib : Machine σ} {isInfo : Address → Prop} {headers : σ → Headers}

/-- **All headers of a response are read, and none that is not there.** Let a library show the
headers of responses. Then the operations are bound to the functions above. To read the headers of a
response answers with as many as its list has, in that order, each with its texts as they are read
from whatever memory is behind them. The size is asked for once, and the header at each index below
it once, in increasing order; no other index is asked for, and each header is asked for its name and
its value. Nothing changes.

Let it copy headers, too. Whatever a client does with its headers and with responses, its headers
have the texts that it gave them; and the headers of a response are in the end those that were added
to it since it was last cleared, in that order, each with what comes back of the texts that it had
when it was added, after those that the response had at first if it was not cleared. -/
theorem response_headers_are_all_read (hshows : ShowsHeaders lib isInfo headers) :
    (∀ slot ∈ headerSlots, Symbol.slot? slot.operation = some slot) ∧
    (∀ s info, isInfo info →
      (Operation.responseHeaders info).answer lib s =
          .value (.headers (((headers s).kept info).map HeaderTexts.read)) ∧
      (Operation.responseHeaders info).calls lib s = (headerCounter.symbol, [.handle info]) ::
          (List.range ((headers s).kept info).length).flatMap (headerCalls (headers s).lent info) ∧
      ((Operation.responseHeaders info).calls lib s).filter (·.1 = headerCounter.symbol) =
          [(headerCounter.symbol, [.handle info])] ∧
      ((Operation.responseHeaders info).calls lib s).filter (·.1 = headerFinder.symbol) =
          (List.range ((headers s).kept info).length).map
            (fun i => (headerFinder.symbol, [.handle info, .int i])) ∧
      headers ((Operation.responseHeaders info).after lib s) = headers s) ∧
    (CopiesHeaders lib isInfo headers →
      ∀ (c : Custody σ (String × String)) (es : List HeaderEvent)
        (c' : Custody σ (String × String)),
        (headers c.library).Serves HasTexts c.mine →
        Steps (HeaderStep lib isInfo headers) c es c' →
        (headers c'.library).Serves HasTexts c'.mine ∧
        ∀ info, isInfo info →
          (Operation.responseHeaders info).answer lib c'.library =
            .value (.headers
              (leftOfFirst info es ((headers c.library).shown info) ++
                (addedSinceClear info es).map passed))) := by
  refine ⟨slot?_headerSlots, fun s info hinfo => ?_, fun hlib c es c' hc h => ?_⟩
  · obtain ⟨hanswer, hcalls, hsame⟩ := hshows.answer_responseHeaders (s := s) hinfo
    refine ⟨hanswer, hcalls, ?_, ?_, hsame⟩
    · rw [hcalls, List.filter_cons, if_pos (decide_eq_true rfl), filter_counter_headerCalls]
    · have hother : headerCounter.symbol ≠ headerFinder.symbol := by decide
      rw [hcalls, List.filter_cons, if_neg (by simpa using hother), filter_finder_headerCalls]
  · obtain ⟨hserves, hshown⟩ := hlib.serves_and_shown_of_steps hshows h hc
    refine ⟨hserves, fun info hinfo => ?_⟩
    rw [(hshows.answer_responseHeaders hinfo).1, hshown]

end Main

/-! ### A library that copies headers -/

/-- What the functions for headers do. -/
inductive HeaderCall where
  | create
  | destroy
  | setName
  | setValue
  | getName
  | getValue
  | add
  | count
  | find
  | clear
deriving DecidableEq

/-- The symbols of these functions. -/
def headerTable : List (String × HeaderCall) :=
  [(headerMaker.symbol, .create), (headerDestroyer.symbol, .destroy),
    (headerNameSetter.symbol, .setName), (headerValueSetter.symbol, .setValue),
    (headerNameGetter.symbol, .getName), (headerValueGetter.symbol, .getValue),
    (headerAdder.symbol, .add), (headerCounter.symbol, .count), (headerFinder.symbol, .find),
    (headerClearer.symbol, .clear)]

theorem lookup_headerTable : ∀ c ∈ headerTable, headerTable.lookup c.1 = some c.2 := by
  decide +kernel

/-- The headers of clients, the address that the next one gets, and the headers of the one
response. -/
structure HeaderLibrary where
  next : Address
  made : Address → Option HeaderTexts
  list : List HeaderTexts
  short : list.length < 4294967296

namespace HeaderLibrary

/-- The response that there is. -/
def IsInfo (a : Address) : Prop := a = 1

/-- Where the header of the response at an index stands, behind all those of clients. -/
def place (i : Nat) : Address := UInt64.ofNat (4294967296 + i)

theorem toNat_place {i : Nat} (h : i < 4294967296) : (place i).toNat = 4294967296 + i := by
  rw [place, UInt64.toNat_ofNat']
  omega

/-- What there is of headers. -/
def headers (s : HeaderLibrary) : Headers where
  object a := if a.toNat < 4294967296 then s.made a else s.list[a.toNat - 4294967296]?
  lent p := if p.1 = 1 ∧ p.2 < s.list.length then place p.2 else nullHandle
  kept info := if info = 1 then s.list else []

/-- One header more in the response, if there is room. -/
def append (s : HeaderLibrary) (texts : HeaderTexts) : HeaderLibrary :=
  if h : s.list.length + 1 < 4294967296 then
    { s with list := s.list ++ [texts], short := by simpa using h }
  else s

/-- The copy of a text that a function gets. -/
def copied (args : List Word) : Option (List UInt8) :=
  (Simulation.argument args 1).memory.map fun memory => memory.takeWhile (· != 0) ++ [0]

/-- The texts of a header are changed. -/
def edit (s : HeaderLibrary) (a : Address) (f : HeaderTexts → HeaderTexts) : HeaderLibrary :=
  { s with made := Function.update s.made a ((s.made a).map f) }

/-- What a function does, and what it answers. -/
def respond (s : HeaderLibrary) (args : List Word) : HeaderCall → HeaderLibrary × Word
  | .create =>
    if s.next = nullHandle ∨ 4294967296 ≤ s.next.toNat ∨ (s.made s.next).isSome then
      (s, .handle nullHandle)
    else
      ({ s with next := s.next + 1, made := Function.update s.made s.next (some ⟨none, none⟩) },
        .handle s.next)
  | .destroy => ({ s with made := Function.update s.made (Simulation.owner args) none }, .unit)
  | .setName =>
    (s.edit (Simulation.owner args) fun texts => { texts with name := copied args }, .unit)
  | .setValue =>
    (s.edit (Simulation.owner args) fun texts => { texts with value := copied args }, .unit)
  | .getName => (s, .text ((s.headers.object (Simulation.owner args)).bind HeaderTexts.name))
  | .getValue => (s, .text ((s.headers.object (Simulation.owner args)).bind HeaderTexts.value))
  | .add => ((s.headers.object (Simulation.argument args 1).address).elim s s.append, .unit)
  | .count => (s, .int s.list.length)
  | .find =>
    (s, .handle (s.headers.lent (Simulation.owner args, (Simulation.argument args 1).number.toNat)))
  | .clear => ({ s with list := [], short := by decide }, .unit)

/-- The library as a state machine. -/
def machine : Machine HeaderLibrary := Program.tableMachine headerTable respond

theorem machine_eq (symbol : String) (call : HeaderCall) (h : (symbol, call) ∈ headerTable)
    (args : List Word)
    (s : HeaderLibrary) : machine symbol args s = s.respond args call :=
  Program.tableMachine_eq lookup_headerTable respond h args s

variable {s : HeaderLibrary} {a : Address} {texts : HeaderTexts}

theorem object_of_lt (s : HeaderLibrary) (h : a.toNat < 4294967296) :
    s.headers.object a = s.made a := if_pos h

theorem lent_of_lt {i : Nat} (h : i < s.list.length) : s.headers.lent (1, i) = place i :=
  if_pos ⟨rfl, h⟩

theorem lent_of_not {p : Address × Nat} (h : ¬ (p.1 = 1 ∧ p.2 < s.list.length)) :
    s.headers.lent p = nullHandle :=
  if_neg h

/-- The null handle is lent for whatever is no response. -/
theorem isLent_nullHandle (s : HeaderLibrary) : s.headers.IsLent nullHandle :=
  ⟨(0, 0), lent_of_not (by simp)⟩

/-- What is lent stands behind all headers of clients. -/
theorem le_toNat_of_isLent (h : s.headers.IsLent a) (hnull : a ≠ nullHandle) :
    4294967296 ≤ a.toNat := by
  obtain ⟨⟨info, i⟩, rfl⟩ := h
  by_cases hlent : info = 1 ∧ i < s.list.length
  · rw [hlent.1, lent_of_lt hlent.2, toNat_place (hlent.2.trans s.short)]
    exact Nat.le_add_right _ _
  · exact absurd (lent_of_not hlent) hnull

/-- A header that is alive and not lent is a client's. -/
theorem toNat_lt (hobject : s.headers.object a = some texts) (hlent : ¬ s.headers.IsLent a) :
    a.toNat < 4294967296 := by
  by_contra hle
  have hfound : s.list[a.toNat - 4294967296]? = some texts := (if_neg hle).symm.trans hobject
  obtain ⟨hi, -⟩ := List.getElem?_eq_some_iff.1 hfound
  refine hlent ⟨(1, a.toNat - 4294967296), ?_⟩
  rw [lent_of_lt hi, place, Nat.add_sub_cancel' (Nat.le_of_not_lt hle), UInt64.ofNat_toNat]

/-- A client's header has other texts from now on, or is no longer alive. -/
theorem headers_update (s : HeaderLibrary) (h : a.toNat < 4294967296) (next : Address)
    (held : Option HeaderTexts) :
    headers { s with next := next, made := Function.update s.made a held } =
      s.headers.put a held := by
  refine congrArg (fun object => Stock.mk object s.headers.lent s.headers.kept) (funext fun b => ?_)
  by_cases hb : b = a
  · subst hb
    simp [h]
  · simp [hb, headers]

theorem headers_edit (hobject : s.headers.object a = some texts) (hlent : ¬ s.headers.IsLent a)
    (f : HeaderTexts → HeaderTexts) : (s.edit a f).headers = s.headers.put a (some (f texts)) := by
  have hlt := toNat_lt hobject hlent
  have hmade : s.made a = some texts := (s.object_of_lt hlt).symm.trans hobject
  rw [edit, hmade]
  exact s.headers_update hlt s.next _

/-- The response has other headers; those of clients stay as they are. -/
theorem keeps_list (s : HeaderLibrary) (list : List HeaderTexts)
    (short : list.length < 4294967296) :
    s.headers.Keeps (Function.update s.headers.kept 1 list)
      (headers { s with list := list, short := short }) where
  kept_eq := by
    funext info
    by_cases h : info = 1 <;> simp [h, headers]
  object_eq a hsome hlent := by
    obtain ⟨texts, htexts⟩ := Option.ne_none_iff_exists'.1 hsome
    have hlt := toNat_lt htexts hlent
    rw [object_of_lt _ hlt, object_of_lt _ hlt]
  not_isLent a hsome hlent hlent' := by
    obtain ⟨texts, htexts⟩ := Option.ne_none_iff_exists'.1 hsome
    have hnull : a ≠ nullHandle := fun hnull => hlent (hnull ▸ s.isLent_nullHandle)
    exact absurd (toNat_lt htexts hlent) (Nat.not_lt.2 (le_toNat_of_isLent hlent' hnull))

/-- **This library shows headers.** -/
theorem showsHeaders_machine : ShowsHeaders machine IsInfo headers where
  size s info hinfo := by
    subst hinfo
    rw [machine_eq headerCounter.symbol .count (by decide +kernel)]
    exact ⟨rfl, s.short, rfl⟩
  index s info i hinfo hi := by
    subst hinfo
    rw [machine_eq headerFinder.symbol .find (by decide +kernel)]
    exact ⟨rfl, rfl⟩
  lends s info i texts hinfo htexts := by
    subst hinfo
    obtain ⟨hi, -⟩ := List.getElem?_eq_some_iff.1 htexts
    have hplace := toNat_place (hi.trans s.short)
    rw [lent_of_lt hi]
    refine (if_neg (by omega)).trans ?_
    rw [hplace, Nat.add_sub_cancel_left]
    exact htexts
  name s a texts hobject := by
    rw [machine_eq headerNameGetter.symbol .getName (by decide +kernel)]
    refine ⟨?_, rfl⟩
    change (s.headers.object a).bind HeaderTexts.name = texts.name
    rw [hobject, Option.bind_some]
  value s a texts hobject := by
    rw [machine_eq headerValueGetter.symbol .getValue (by decide +kernel)]
    refine ⟨?_, rfl⟩
    change (s.headers.object a).bind HeaderTexts.value = texts.value
    rw [hobject, Option.bind_some]

/-- **It copies headers, too.** -/
theorem copiesHeaders_machine : CopiesHeaders machine IsInfo headers where
  create s := by
    rw [machine_eq headerMaker.symbol .create (by decide +kernel), respond]
    by_cases h : s.next = nullHandle ∨ 4294967296 ≤ s.next.toNat ∨ (s.made s.next).isSome
    · rw [if_pos h]
      exact .refused
    · rw [if_neg h]
      obtain ⟨hnull, hlt, hnone⟩ :
          s.next ≠ nullHandle ∧ s.next.toNat < 4294967296 ∧ s.made s.next = none := by
        simpa using h
      have hobject : s.headers.object s.next = none := (s.object_of_lt hlt).trans hnone
      have hlent : ¬ s.headers.IsLent s.next :=
        fun hlent => Nat.not_lt.2 (le_toNat_of_isLent hlent hnull) hlt
      have hput := s.headers_update hlt (s.next + 1) (some ⟨none, none⟩)
      exact hput ▸ .made hnull hobject hlent ⟨by decide +kernel, by decide +kernel⟩
  setName s a texts name hobject hlent := by
    rw [machine_eq headerNameSetter.symbol .setName (by decide +kernel)]
    exact headers_edit hobject hlent _
  setValue s a texts value hobject hlent := by
    rw [machine_eq headerValueSetter.symbol .setValue (by decide +kernel)]
    exact headers_edit hobject hlent _
  destroy s a texts hobject hlent := by
    rw [machine_eq headerDestroyer.symbol .destroy (by decide +kernel)]
    exact s.headers_update (toNat_lt hobject hlent) s.next none
  add s info a texts hinfo hobject hroom := by
    subst hinfo
    rw [machine_eq headerAdder.symbol .add (by decide +kernel)]
    change s.headers.Keeps _ (headers ((s.headers.object a).elim s s.append))
    have hroom' : s.list.length + 1 < 4294967296 := hroom
    rw [hobject, Option.elim_some, append, dif_pos hroom']
    exact s.keeps_list _ _
  clear s info hinfo := by
    subst hinfo
    rw [machine_eq headerClearer.symbol .clear (by decide +kernel)]
    exact s.keeps_list _ _

/-- A library with no headers. -/
def empty : HeaderLibrary := ⟨100, fun _ => none, [], by decide⟩

/-- A library with a header whose name is the null pointer and whose value is not UTF-8. -/
def odd : HeaderLibrary := ⟨100, fun _ => none, [⟨none, some [0x61, 0xff, 0, 0x62]⟩], by decide⟩

end HeaderLibrary

/-- What a client may do with this library. -/
abbrev HeaderLibraryStep : Custody HeaderLibrary (String × String) → HeaderEvent →
    Custody HeaderLibrary (String × String) → Prop :=
  HeaderStep HeaderLibrary.machine HeaderLibrary.IsInfo HeaderLibrary.headers

/-- A header with odd texts is read. A header that is added twice to a response which was cleared
before stays there as it was, though it is changed and destroyed. -/
theorem added_header_outlives_its_object :
    (Operation.responseHeaders 1).answer HeaderLibrary.machine .odd =
      .value (.headers [("", "a\uFFFD")]) ∧
    ∃ c, Steps HeaderLibraryStep ⟨.empty, fun _ => none⟩
        [.other, .added 1 ("", ""), .cleared 1, .other, .other, .added 1 ("a", "x\x00z"),
          .added 1 ("a", "x\x00z"), .other, .other] c ∧
      (Operation.responseHeaders 1).answer HeaderLibrary.machine c.library =
        .value (.headers [("a", "x"), ("a", "x")]) := by
  have hmade : (Operation.direct headerMaker []).answer HeaderLibrary.machine .empty =
      .value (.handle 100) := by
    have hword : (HeaderLibrary.machine headerMaker.symbol [] .empty).2 = .handle 100 := by
      decide +kernel
    rw [answer_direct, List.map_nil, hword]
    rfl
  obtain ⟨c, hc⟩ : ∃ c, Steps HeaderLibraryStep ⟨.empty, fun _ => none⟩
      [.other, .added 1 ("", ""), .cleared 1, .other, .other, .added 1 ("a", "x\x00z"),
        .added 1 ("a", "x\x00z"), .other, .other] c :=
    ⟨_, .cons (.create _ hmade (by decide)) <|
      .cons (.add _ (a := 100) rfl (show _ = some ⟨none, none⟩ by decide +kernel)
        ⟨by decide +kernel, by decide +kernel⟩ (by decide +kernel)) <|
      .cons (.clear _ rfl) <|
      .cons (.setName _ (a := 100) "a" (show _ = some ("", "") by decide)) <|
      .cons (.setValue _ (a := 100) "x\x00z" (show _ = some ("a", "") by decide)) <|
      .cons (.add _ (a := 100) rfl (show _ = some (.ofKept ("a", "x\x00z")) by decide +kernel)
        (hasTexts_ofKept _) (by decide +kernel)) <|
      .cons (.add _ (a := 100) rfl (show _ = some (.ofKept ("a", "x\x00z")) by decide +kernel)
        (hasTexts_ofKept _) (by decide +kernel)) <|
      .cons (.setValue _ (a := 100) "y" (show _ = some ("a", "x\x00z") by decide)) <|
      .cons (.destroy _ (a := 100) (show _ = some ("a", "y") by decide)) <| .refl _⟩
  obtain ⟨-, hread, hrun⟩ := response_headers_are_all_read HeaderLibrary.showsHeaders_machine
  have hodd := (hread .odd 1 rfl).1
  have hend := (hrun HeaderLibrary.copiesHeaders_machine _ _ c (Stock.Serves.none _ _) hc).2 1 rfl
  refine ⟨hodd.trans (congrArg (fun hs => Result.value (.headers hs)) ?_), c, hc,
    hend.trans (congrArg (fun hs => Result.value (.headers hs)) ?_)⟩ <;> decide +kernel

end LateBinding.Client
