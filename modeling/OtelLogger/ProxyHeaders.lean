import OtelLogger.ProxySettings
import Mathlib.Data.String.Basic

/-!
The headers of a route. Their names are tokens that differ in more than case, and each value is the
one that the command line gives last, or else the one of the configuration, expanded and without
control characters.
-/

namespace OtelLogger

open Std (ExtTreeMap)

open Validation

/-! ### Names -/

/-- `tchar` of RFC 7230. -/
def isTokenChar (c : Char) : Bool :=
  c.isAlphanum || "!#$%&'*+-.^_`|~".toList.contains c

/-- A token without upper-case letters that may be sent as the name of a header. -/
structure HeaderName (name : String) : Prop where
  lower : toAsciiLowercase name = name
  nonempty : name ≠ ""
  token : ∀ c ∈ name.toList, isTokenChar c = true
  allowed : name ∉ disallowedKeys

@[simp] theorem toAsciiLowercase_idem (text : String) :
    toAsciiLowercase (toAsciiLowercase text) = toAsciiLowercase text := by
  simp [toAsciiLowercase, Function.comp_def]

theorem toAsciiLowercase_eq_empty_iff {text : String} : toAsciiLowercase text = "" ↔ text = "" := by
  rw [← String.toList_inj, ← String.toList_inj, toAsciiLowercase, String.toList_ofList]
  exact List.map_eq_nil_iff

/-- By evaluation on the characters below 127, as no other is accepted. -/
theorem isTokenChar_of_accepted {c : Char}
    (accepted : (isAsciiGraphic c && !headerSeparators.contains c) = true) :
    isTokenChar c.toLower = true := by
  have all : ∀ code < 127, (isAsciiGraphic (.ofNat code) &&
      !headerSeparators.contains (.ofNat code)) = true →
        isTokenChar (Char.ofNat code).toLower = true := by
    decide
  have below : c.toNat < 127 := by
    simp only [isAsciiGraphic, Bool.and_eq_true, decide_eq_true_eq] at accepted
    omega
  have here := all c.toNat below
  rw [Char.ofNat_toNat] at here
  exact here accepted

theorem headerName_of_valid {key route : String} (valid : validateHeaderKey key route = .ok ()) :
    HeaderName (toAsciiLowercase key) := by
  rw [validateHeaderKey, refuse_ok_iff] at valid
  obtain ⟨nonempty, valid⟩ := valid
  split at valid
  · cases valid
  · rename_i accepted
    rw [List.findIdx?_eq_none_iff] at accepted
    obtain ⟨allowed, _⟩ := refuse_ok_iff.mp valid
    refine ⟨toAsciiLowercase_idem key, ?_, ?_, ?_⟩
    · exact fun empty => nonempty (toAsciiLowercase_eq_empty_iff.mp empty)
    · intro c member
      rw [toAsciiLowercase, String.toList_ofList] at member
      obtain ⟨source, listed, rfl⟩ := List.mem_map.mp member
      exact isTokenChar_of_accepted (by simpa using accepted source listed)
    · simpa using allowed

/-! ### Values -/

def ControlFree (value : String) : Prop :=
  ∀ c ∈ value.toList, isControl c = true → c = '\t'

theorem controlFree_of_valid {key value route : String}
    (valid : validateHeaderValue key value route = .ok ()) : ControlFree value := by
  intro c member control
  have listed : c ∈ value.toList.zipIdx.map Prod.fst := by
    rwa [List.zipIdx_map_fst]
  obtain ⟨entry, passed, rfl⟩ := List.mem_map.mp listed
  have checked := forM_ok valid entry passed
  rw [validateHeaderChar, refuse_ok_iff, refuse_ok_iff] at checked
  by_contra other
  exact checked.2.1 (.inl ⟨control, other⟩)

section Environment

variable (environment : String → Except VarError String)

/-- `env:VAR` stands for the variable, everything else for itself. -/
def Expands (raw value : String) : Prop :=
  match stripPrefix "env:" raw with
  | none => value = raw
  | some variableName => environment variableName = .ok value

variable {environment}

theorem expands_of_ok {key raw route value : String}
    (expanded : expandVariable environment key raw route = .ok value) :
    Expands environment raw value := by
  unfold expandVariable at expanded
  unfold Expands
  cases stripped : stripPrefix "env:" raw with
  | none =>
      rw [stripped] at expanded
      exact (pure_ok_iff.mp expanded).symm
  | some variableName =>
      rw [stripped] at expanded
      cases found : environment variableName with
      | error reason => simp [found, throw_ne_ok] at expanded
      | ok text =>
          simp only [found] at expanded
          exact found.trans (congrArg Except.ok (pure_ok_iff.mp expanded))

end Environment

/-! ### Resolution -/

section Resolution

variable (environment : String → Except VarError String)

/-- A header as it is sent, for a key and a value as they are given. -/
structure Resolved (given sent : String × String) : Prop where
  name : sent.1 = toAsciiLowercase given.1
  valid : HeaderName sent.1
  value : Expands environment given.2 sent.2
  safe : ControlFree sent.2

variable {environment}

theorem resolveHeader_ok {route : String} {resolved next : List (String × String)}
    {header : String × String}
    (accepted : resolveHeader environment route resolved header = .ok next) :
    ∃ sent, Resolved environment header sent ∧ sent.1 ∉ resolved.map Prod.fst ∧
      next = resolved ++ [sent] := by
  rw [resolveHeader] at accepted
  obtain ⟨_, valid, accepted⟩ := bind_ok_iff.mp accepted
  obtain ⟨fresh, accepted⟩ := refuse_ok_iff.mp accepted
  obtain ⟨value, expanded, accepted⟩ := bind_ok_iff.mp accepted
  obtain ⟨_, safe, result⟩ := bind_ok_iff.mp accepted
  refine ⟨(toAsciiLowercase header.1, value), ⟨rfl, headerName_of_valid valid,
    expands_of_ok expanded, controlFree_of_valid safe⟩, ?_, (pure_ok_iff.mp result).symm⟩
  intro member
  obtain ⟨existing, listed, same⟩ := List.mem_map.mp member
  exact fresh (List.any_eq_true.mpr ⟨existing, listed, by simpa using same⟩)

/-- One header is sent for each that is given, and no name twice. -/
theorem resolveHeaders_ok {raw : ExtTreeMap String String} {route : String}
    {headers : List (String × String)}
    (accepted : resolveHeaders environment raw route = .ok headers) :
    List.Forall₂ (Resolved environment) raw.toList headers ∧ (headers.map Prod.fst).Nodup := by
  refine invariant_foldlM (motive := fun passed resolved =>
    List.Forall₂ (Resolved environment) passed resolved ∧ (resolved.map Prod.fst).Nodup) ?_
      raw.toList [] [] headers ⟨.nil, List.nodup_nil⟩ accepted
  intro passed resolved header next sofar taken
  obtain ⟨sent, one, fresh, rfl⟩ := resolveHeader_ok taken
  refine ⟨List.rel_append sofar.1 (.cons one .nil), ?_⟩
  rw [List.map_append, List.nodup_append]
  refine ⟨sofar.2, List.nodup_singleton _, ?_⟩
  intro name member other last same
  rw [same, List.mem_singleton.mp last] at member
  exact fresh member

/-! ### Precedence -/

/-- The name that an entry of the command line is compared by, and its value. -/
def cliHeader (entry : String) : Option (String × String) :=
  (splitOnce '=' entry).map fun (key, value) => (toAsciiLowercase (trim key), value)

def lastCliValue (entries : List String) (name : String) : Option String :=
  (entries.filterMap cliHeader).reverse.lookup name

theorem lower_of_cliHeader {entry name value : String}
    (header : cliHeader entry = some (name, value)) : toAsciiLowercase name = name := by
  obtain ⟨parts, _, same⟩ := Option.map_eq_some_iff.mp header
  obtain ⟨rfl, _⟩ := Prod.mk.inj same
  exact toAsciiLowercase_idem _

theorem lastCliValue_concat {entry name value : String} (entries : List String)
    (header : cliHeader entry = some (name, value)) (other : String) :
    lastCliValue (entries ++ [entry]) other =
      if other = name then some value else lastCliValue entries other := by
  simp only [lastCliValue, List.filterMap_append, List.filterMap_cons, header, List.filterMap_nil,
    List.reverse_append, List.reverse_cons, List.reverse_nil, List.nil_append, List.cons_append,
    List.lookup_cons]
  by_cases same : other = name
  · simp [same]
  · simp [same, beq_eq_false_iff_ne.mpr same]

theorem lastCliValue_isSome {entries : List String} {name : String} :
    (lastCliValue entries name).isSome = true ↔
      ∃ entry ∈ entries, ∃ value, cliHeader entry = some (name, value) := by
  rw [← Option.ne_none_iff_isSome, lastCliValue, Ne, List.lookup_eq_none_iff]
  simp only [List.mem_reverse, List.mem_filterMap, not_forall, bne_iff_ne, not_not, Prod.exists,
    exists_prop]
  constructor
  · rintro ⟨_, value, ⟨entry, listed, header⟩, rfl⟩
    exact ⟨entry, listed, value, header⟩
  · rintro ⟨entry, listed, value, header⟩
    exact ⟨name, value, ⟨entry, listed, header⟩, rfl⟩

theorem mergeCliHeader_ok {dest next : ExtTreeMap String String} {position : ℕ} {entry : String}
    (accepted : mergeCliHeader dest position entry = .ok next) :
    ∃ name value, cliHeader entry = some (name, value) ∧
      next = (dest.filter fun existing _ => toAsciiLowercase existing ≠ name).insert name value := by
  unfold mergeCliHeader at accepted
  cases found : splitOnce '=' entry with
  | none => simp [found, throw_ne_ok] at accepted
  | some parts =>
      obtain ⟨key, value⟩ := parts
      simp only [found] at accepted
      obtain ⟨_, result⟩ := refuse_ok_iff.mp accepted
      refine ⟨toAsciiLowercase (trim key), value, ?_, (pure_ok_iff.mp result).symm⟩
      rw [cliHeader, found]
      rfl

/-- An entry stands under its lower-case name only, in place of every spelling before it. -/
def Merged (config : ExtTreeMap String String) (entries : List String)
    (merged : ExtTreeMap String String) : Prop :=
  ∀ key, merged[key]? =
    match lastCliValue entries (toAsciiLowercase key) with
    | some value => if toAsciiLowercase key = key then some value else none
    | none => config[key]?

theorem Merged.concat {config dest next : ExtTreeMap String String} {entries : List String}
    {position : ℕ} {entry : String} (sofar : Merged config entries dest)
    (accepted : mergeCliHeader dest position entry = .ok next) :
    Merged config (entries ++ [entry]) next := by
  obtain ⟨name, value, header, rfl⟩ := mergeCliHeader_ok accepted
  intro key
  rw [lastCliValue_concat entries header, ExtTreeMap.getElem?_insert,
    ExtTreeMap.getElem?_filter']
  simp only [Std.compare_eq_iff_eq]
  by_cases named : toAsciiLowercase key = name
  · by_cases same : name = key
    · simp [named, same]
    · simp [named, same]
  · have other : name ≠ key := by
      rintro rfl
      exact named (lower_of_cliHeader header)
    rw [if_neg other, if_neg named, ← sofar key]
    cases dest[key]? with
    | none => rfl
    | some earlier => simp [named]

theorem mergeCliHeaders_ok {config merged : ExtTreeMap String String} {entries : List String}
    (accepted : mergeCliHeaders config entries = .ok merged) : Merged config entries merged := by
  have whole := invariant_foldlM (motive := fun passed dest =>
    Merged config (passed.map Prod.fst) dest)
      (fun passed dest entry next sofar taken => by
        rw [List.map_append]
        exact sofar.concat taken)
      entries.zipIdx [] config merged (fun key => rfl) accepted
  rwa [List.nil_append, List.zipIdx_map_fst] at whole

/-! ### What a route sends -/

theorem mem_iff_getElem? {headers : ExtTreeMap String String} {key : String} :
    key ∈ headers ↔ ∃ raw, headers[key]? = some raw := by
  rw [ExtTreeMap.mem_iff_isSome_getElem?, Option.isSome_iff_exists]

theorem Merged.mem_iff {config merged : ExtTreeMap String String} {entries : List String}
    (whole : Merged config entries merged) (name : String) :
    (∃ key ∈ merged, toAsciiLowercase key = name) ↔
      (∃ key ∈ config, toAsciiLowercase key = name) ∨
        ∃ entry ∈ entries, ∃ value, cliHeader entry = some (name, value) := by
  rw [← lastCliValue_isSome]
  cases last : lastCliValue entries name with
  | some value =>
      obtain ⟨entry, _, _, header⟩ := lastCliValue_isSome.mp (Option.isSome_of_eq_some last)
      have lower := lower_of_cliHeader header
      refine iff_of_true ⟨name, mem_iff_getElem?.mpr ⟨value, ?_⟩, lower⟩ (.inr rfl)
      rw [whole name, lower, last]
      exact if_pos rfl
  | none =>
      have same {key : String} (lower : toAsciiLowercase key = name) :
          key ∈ merged ↔ key ∈ config := by
        rw [mem_iff_getElem?, mem_iff_getElem?, whole key, lower, last]
      constructor
      · rintro ⟨key, listed, lower⟩
        exact .inl ⟨key, (same lower).mp listed, lower⟩
      · rintro (⟨key, listed, lower⟩ | given)
        · exact ⟨key, (same lower).mpr listed, lower⟩
        · cases given

/-- The value that is given for a name, before expansion. -/
def Given (config : ExtTreeMap String String) (entries : List String) (name raw : String) : Prop :=
  match lastCliValue entries name with
  | some value => raw = value
  | none => ∃ key, toAsciiLowercase key = name ∧ config[key]? = some raw

theorem Merged.given {config merged : ExtTreeMap String String} {entries : List String}
    (whole : Merged config entries merged) {key raw : String} (found : merged[key]? = some raw) :
    Given config entries (toAsciiLowercase key) raw := by
  rw [whole key] at found
  unfold Given
  cases last : lastCliValue entries (toAsciiLowercase key) with
  | some value =>
      simp only [last, Option.ite_none_right_eq_some] at found
      exact (Option.some.inj found.2).symm
  | none =>
      simp only [last] at found
      exact ⟨key, rfl, found⟩

variable (environment)

def headersFor (config : ExtTreeMap String String) (entries : List String) (route : String) :
    Except String (List (String × String)) := do
  let merged ← mergeCliHeaders config entries
  resolveHeaders environment merged route

structure SafeHeaders (config : ExtTreeMap String String) (entries : List String)
    (headers : List (String × String)) : Prop where
  once : (headers.map Prod.fst).Nodup
  names : ∀ name, name ∈ headers.map Prod.fst ↔
    (∃ key ∈ config, toAsciiLowercase key = name) ∨
      ∃ entry ∈ entries, ∃ value, cliHeader entry = some (name, value)
  valid : ∀ header ∈ headers, HeaderName header.1
  values : ∀ header ∈ headers, ∃ raw,
    Given config entries header.1 raw ∧ Expands environment raw header.2
  safe : ∀ header ∈ headers, ControlFree header.2

variable {environment}

theorem names_of_resolved {given sent : List (String × String)}
    (resolved : List.Forall₂ (Resolved environment) given sent) :
    sent.map Prod.fst = given.map fun header => toAsciiLowercase header.1 := by
  induction resolved with
  | nil => rfl
  | cons one _ ih => rw [List.map_cons, List.map_cons, one.name, ih]

theorem given_of_sent {given sent : List (String × String)}
    (resolved : List.Forall₂ (Resolved environment) given sent) :
    ∀ header ∈ sent, ∃ source ∈ given, Resolved environment source header := by
  induction resolved with
  | nil => exact List.forall_mem_nil _
  | cons one _ ih =>
      intro header member
      rcases List.mem_cons.mp member with rfl | later
      · exact ⟨_, List.mem_cons_self, one⟩
      · obtain ⟨source, listed, found⟩ := ih header later
        exact ⟨source, List.mem_cons_of_mem _ listed, found⟩

structure Sendable (headers : List (String × String)) : Prop where
  once : (headers.map Prod.fst).Nodup
  valid : ∀ header ∈ headers, HeaderName header.1
  safe : ∀ header ∈ headers, ControlFree header.2

theorem sendable_of_ok {raw : ExtTreeMap String String} {route : String}
    {headers : List (String × String)}
    (accepted : resolveHeaders environment raw route = .ok headers) : Sendable headers := by
  obtain ⟨resolved, once⟩ := resolveHeaders_ok accepted
  refine ⟨once, ?_, ?_⟩
  · intro header member
    obtain ⟨_, _, sent⟩ := given_of_sent resolved header member
    exact sent.valid
  · intro header member
    obtain ⟨_, _, sent⟩ := given_of_sent resolved header member
    exact sent.safe

theorem safeHeaders_of_ok {config : ExtTreeMap String String} {entries : List String}
    {route : String} {headers : List (String × String)}
    (accepted : headersFor environment config entries route = .ok headers) :
    SafeHeaders environment config entries headers := by
  obtain ⟨merged, mergedOk, resolvedOk⟩ := bind_ok_iff.mp accepted
  have whole := mergeCliHeaders_ok mergedOk
  obtain ⟨resolved, _⟩ := resolveHeaders_ok resolvedOk
  have sendable := sendable_of_ok resolvedOk
  constructor
  · exact sendable.once
  · intro name
    rw [names_of_resolved resolved, ← whole.mem_iff name, List.mem_map]
    constructor
    · rintro ⟨⟨key, raw⟩, listed, lower⟩
      exact ⟨key, mem_iff_getElem?.mpr ⟨raw, ExtTreeMap.mem_toList_iff_getElem?_eq_some.mp listed⟩,
        lower⟩
    · rintro ⟨key, listed, lower⟩
      obtain ⟨raw, found⟩ := mem_iff_getElem?.mp listed
      exact ⟨(key, raw), ExtTreeMap.mem_toList_iff_getElem?_eq_some.mpr found, lower⟩
  · exact sendable.valid
  · intro header member
    obtain ⟨given, listed, sent⟩ := given_of_sent resolved header member
    rw [sent.name]
    exact ⟨given.2, whole.given (ExtTreeMap.mem_toList_iff_getElem?_eq_some.mp listed), sent.value⟩
  · exact sendable.safe

theorem refused_of_spellings {config : ExtTreeMap String String} {entries : List String}
    {route first second : String} {headers : List (String × String)} (firstListed : first ∈ config)
    (secondListed : second ∈ config) (differ : first ≠ second)
    (same : toAsciiLowercase first = toAsciiLowercase second)
    (kept : lastCliValue entries (toAsciiLowercase first) = none) :
    headersFor environment config entries route ≠ .ok headers := by
  intro accepted
  obtain ⟨merged, mergedOk, resolvedOk⟩ := bind_ok_iff.mp accepted
  have whole := mergeCliHeaders_ok mergedOk
  obtain ⟨resolved, once⟩ := resolveHeaders_ok resolvedOk
  rw [names_of_resolved resolved] at once
  have listed {key : String} (member : key ∈ config)
      (lower : toAsciiLowercase key = toAsciiLowercase first) :
      ∃ raw, (key, raw) ∈ merged.toList := by
    obtain ⟨raw, found⟩ := mem_iff_getElem?.mp member
    refine ⟨raw, ExtTreeMap.mem_toList_iff_getElem?_eq_some.mpr ?_⟩
    rw [whole key, lower, kept]
    exact found
  obtain ⟨firstRaw, firstSent⟩ := listed firstListed rfl
  obtain ⟨secondRaw, secondSent⟩ := listed secondListed same.symm
  have equal := List.inj_on_of_nodup_map once firstSent secondSent same
  exact differ (Prod.mk.inj equal).1

theorem headersFor_safe (environment : String → Except VarError String)
    (config : ExtTreeMap String String) (entries : List String)
    (route : String) :
    (∀ headers, headersFor environment config entries route = .ok headers →
        SafeHeaders environment config entries headers) ∧
      ∀ first ∈ config, ∀ second ∈ config, first ≠ second →
        toAsciiLowercase first = toAsciiLowercase second →
          (∀ entry ∈ entries, ∀ value, cliHeader entry ≠ some (toAsciiLowercase first, value)) →
            ∀ headers, headersFor environment config entries route ≠ .ok headers := by
  constructor
  · intro headers accepted
    exact safeHeaders_of_ok accepted
  · intro first firstListed second secondListed differ same unmentioned headers
    refine refused_of_spellings firstListed secondListed differ same ?_
    apply Option.eq_none_iff_forall_ne_some.mpr
    intro value found
    obtain ⟨entry, listed, written, header⟩ :=
      lastCliValue_isSome.mp (Option.isSome_of_eq_some found)
    exact unmentioned entry listed written header

end Resolution

theorem headersFor_safe_override :
    let environment : String → Except VarError String := fun name =>
      if name = "TEAM" then .ok "core" else .error .notPresent
    let config : ExtTreeMap String String :=
      .ofList [("Authorization", "old"), ("X-Team", "env:TEAM")]
    let entries := ["authorization=first", " AUTHORIZATION =a=b"]
    let headers := [("x-team", "core"), ("authorization", "a=b")]
    headersFor environment config entries "anthropic" = .ok headers ∧
      SafeHeaders environment config entries headers := by
  intro environment config entries headers
  have accepted : headersFor environment config entries "anthropic" = .ok headers := by
    decide +kernel
  exact ⟨accepted, (headersFor_safe environment config entries "anthropic").1 headers accepted⟩

/-! ### Accepted settings -/

section Settings

variable {environment : String → Except VarError String}

theorem BuiltRoute.headers_ok {route : ProxyRoute} (built : BuiltRoute environment route) :
    ∃ raw name, resolveHeaders environment raw name = .ok route.headers := by
  cases built with
  | vendor _ built =>
      obtain ⟨parts, _, rest⟩ := bind_ok_iff.mp built
      cases parts with
      | none => cases rest
      | some parts =>
          obtain ⟨headers, accepted, result⟩ := bind_ok_iff.mp rest
          obtain rfl := Option.some.inj (pure_ok_iff.mp result)
          exact ⟨_, _, accepted⟩
  | custom built =>
      rw [buildCustomRoute] at built
      obtain ⟨_, rest⟩ := refuse_ok_iff.mp built
      obtain ⟨_, rest⟩ := refuse_ok_iff.mp rest
      obtain ⟨headers, accepted, result⟩ := bind_ok_iff.mp rest
      obtain rfl := pure_ok_iff.mp result
      exact ⟨_, _, accepted⟩

/-- No accepted settings send an unsafe header, however the headers were given. -/
theorem resolveProxySettings_sendable {cli : ProxyCliInputs} {config : Option ProxyConfig}
    {logSink : Option LogSink} {settings : ProxySettings}
    (resolved : resolveProxySettings environment cli config logSink = .ok (some settings)) :
    ∀ route ∈ settings.routes, Sendable route.headers := by
  intro route member
  obtain ⟨raw, name, accepted⟩ := ((resolveProxySettings_ok resolved).1 route member).headers_ok
  exact sendable_of_ok accepted

end Settings

end OtelLogger
