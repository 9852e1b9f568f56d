import Geocoding.Request.Parameters
import Mathlib.Data.List.Basic
import Mathlib.Data.List.Nodup
import Mathlib.Data.List.Perm.Basic

/-!
# Request parameters: order

The request does not depend on the order of its parameters (`SearchRequest.ofParameters_perm`). The
reason is that a parameter is about one thing, its `Slot`, and that reading it does not depend on
what has been read before (`Parameters.read_eq`): the parameter is read on its own, and what it says
about its slot is taken over. What is taken over into different slots can be taken over in any order
(`Parameters.take_comm`).

The order does decide which of several wrong parameters is reported, so results are compared up to
the error, as `Except.toOption`.
-/

namespace Geocoding

/-! ## Runs that may fail -/

section

variable {α σ ε : Type}

theorem toOption_eq_some_iff {x : Except ε α} {a : α} : x.toOption = some a ↔ x = .ok a := by
  cases x <;> simp [Except.toOption]

theorem toOption_eq_none_iff {x : Except ε α} : x.toOption = none ↔ ∃ e, x = .error e := by
  cases x <;> simp [Except.toOption]

theorem toOption_bind {β : Type} (x : Except ε α) (f : α → Except ε β) :
    (x >>= f).toOption = x.toOption.bind fun a => (f a).toOption := by
  cases x <;> rfl

theorem toOption_foldlM (f : σ → α → Except ε σ) (s : σ) (xs : List α) :
    (xs.foldlM f s).toOption =
      xs.foldl (fun o x => o.bind fun s => (f s x).toOption) (some s) := by
  have hfold : (xs.foldlM f s).toOption = xs.foldlM (fun s x => (f s x).toOption) s := by
    induction xs generalizing s with
    | nil => rfl
    | cons x xs ih =>
      rw [List.foldlM_cons, List.foldlM_cons, toOption_bind]
      exact congrArg _ (funext ih)
  rw [hfold, List.foldlM_eq_foldl]
  rfl

/-- If any two steps of a run can be exchanged, so can all of them. -/
theorem toOption_foldlM_perm {f : σ → α → Except ε σ} {xs ys : List α} (h : xs.Perm ys)
    (hcomm : ∀ x ∈ xs, ∀ y ∈ xs, ∀ s, (f s x >>= (f · y)).toOption = (f s y >>= (f · x)).toOption)
    (s : σ) : (xs.foldlM f s).toOption = (ys.foldlM f s).toOption := by
  rw [toOption_foldlM, toOption_foldlM]
  refine h.foldl_eq' (fun x hx y hy o => ?_) _
  cases o with
  | none => rfl
  | some s => simpa only [Option.bind_some, toOption_bind] using hcomm x hx y hy s

theorem foldlM_filter {f : σ → α → Except ε σ} {p : α → Bool}
    (h : ∀ x, p x = false → ∀ s, f s x = .ok s) (xs : List α) (s : σ) :
    (xs.filter p).foldlM f s = xs.foldlM f s := by
  induction xs generalizing s with
  | nil => rfl
  | cons x xs ih =>
    cases hx : p x with
    | false =>
      rw [List.filter_cons_of_neg (by simp [hx]), ih, List.foldlM_cons, h x hx]
      rfl
    | true =>
      rw [List.filter_cons_of_pos hx, List.foldlM_cons, List.foldlM_cons]
      exact congrArg _ (funext ih)

end

/-! ## Slots -/

/-- What a parameter is about. -/
inductive Slot where
  | free
  | field (role : PhraseRole)
  | viewbox
  | bounded
  | countries
  | excluded
  | featureType
  | limit
  | nothing
deriving DecidableEq

namespace Slot

/-- What the parameter of a name is about. -/
def ofName (name : String) : Slot :=
  if name = "q" then free
  else
    match PhraseRole.ofField? name with
    | some role => field role
    | none =>
      match name with
      | "viewbox" => viewbox
      | "bounded" => bounded
      | "countrycodes" => countries
      | "exclude_place_ids" => excluded
      | "featureType" | "featuretype" => featureType
      | "limit" => limit
      | _ => nothing

/-- The names of the parameters about a slot. -/
def names : Slot → List String
  | free => ["q"]
  | field role => [role.name]
  | viewbox => ["viewbox"]
  | bounded => ["bounded"]
  | countries => ["countrycodes"]
  | excluded => ["exclude_place_ids"]
  | featureType => ["featureType", "featuretype"]
  | limit => ["limit"]
  | nothing => []

theorem mem_names_ofName {name : String} (h : ofName name ≠ nothing) :
    name ∈ (ofName name).names := by
  unfold ofName at h ⊢
  split
  · simp_all [names]
  · split
    · next role hrole =>
      have := List.find?_some hrole
      simp_all [names]
    · split <;> simp_all [names]

/-- Only the kind of places has two names. -/
theorem eq_of_ofName_eq {name name' : String} (h : ofName name = ofName name')
    (hne : ofName name ≠ nothing) :
    name = name' ∨ (name = "featureType" ∧ name' = "featuretype") ∨
      (name = "featuretype" ∧ name' = "featureType") := by
  have hmem := mem_names_ofName hne
  have hmem' := mem_names_ofName (h ▸ hne)
  rw [← h] at hmem'
  generalize ofName name = slot at hmem hmem' hne
  cases slot with
  | featureType =>
    simp only [names, List.mem_cons, List.not_mem_nil, or_false] at hmem hmem'
    rcases hmem with rfl | rfl <;> rcases hmem' with rfl | rfl <;> simp
  | nothing => exact absurd rfl hne
  | _ => exact .inl ((List.mem_singleton.1 hmem).trans (List.mem_singleton.1 hmem').symm)

end Slot

namespace Parameters

/-- The parameters with what others say about a slot. -/
def take (p r : Parameters) : Slot → Parameters
  | .free => { p with free := r.free }
  | .field role => { p with fields := p.fields.put role (r.fields.get? role) }
  | .viewbox => { p with options := { p.options with viewbox := r.options.viewbox } }
  | .bounded => { p with options := { p.options with bounded := r.options.bounded } }
  | .countries => { p with options := { p.options with countries := r.options.countries } }
  | .excluded => { p with options := p.options.excluding r.options.excluded }
  | .featureType =>
    { p with
      options := { p.options with featureType := r.options.featureType.or p.options.featureType } }
  | .limit => { p with options := { p.options with limit := r.options.limit } }
  | .nothing => p

end Parameters

theorem StructuredQuery.put_comm (q : StructuredQuery) {role role' : PhraseRole} (h : role ≠ role')
    (content content' : Option String) :
    (q.put role content).put role' content' = (q.put role' content').put role content := by
  cases role <;> cases role' <;> first | rfl | exact absurd rfl h

theorem StructuredQuery.put_get?_put (q q' : StructuredQuery) (role : PhraseRole)
    (content : Option String) :
    q.put role ((q'.put role content).get? role) = q.put role content := by
  cases role <;> rfl

namespace SearchOptions

theorem withViewbox_eq (o : SearchOptions) (lon₁ lat₁ lon₂ lat₂ : Float) :
    o.withViewbox lon₁ lat₁ lon₂ lat₂ = (withViewbox {} lon₁ lat₁ lon₂ lat₂).map fun r =>
      { o with viewbox := r.viewbox } := by
  unfold withViewbox
  dsimp only
  split
  · rfl
  · rfl

end SearchOptions

namespace Parameters

theorem take_comm (p r r' : Parameters) {slot slot' : Slot} (h : slot = slot' → slot = .nothing) :
    (p.take r slot).take r' slot' = (p.take r' slot').take r slot := by
  cases slot <;> cases slot' <;> try first | rfl | exact nomatch h rfl
  case field.field role role' =>
    have hrole : role ≠ role' := fun heq => nomatch h (congrArg Slot.field heq)
    simp only [take, StructuredQuery.put_comm _ hrole]

theorem readViewbox_eq (o : SearchOptions) (value : String) :
    readViewbox o value = (readViewbox {} value).map fun r =>
      { o with viewbox := r.viewbox } := by
  unfold readViewbox
  split
  · exact o.withViewbox_eq _ _ _ _
  · rfl

/-- A parameter sets its slot, to something that does not depend on the parameters before. -/
theorem read_eq (p : Parameters) (key value : String) :
    p.read key value = (read {} key value).map (p.take · (Slot.ofName key)) := by
  unfold read Slot.ofName
  split
  · rfl
  · unfold StructuredQuery.set?
    cases PhraseRole.ofField? key with
    | some role =>
      simp only [Option.map_some, Except.map, take, StructuredQuery.write,
        StructuredQuery.put_get?_put]
    | none =>
      simp only [Option.map_none]
      unfold readOption
      split
      case h_1 =>
        rw [readViewbox_eq]
        cases readViewbox {} value <;> rfl
      case h_2 | h_3 => rfl
      case h_4 => cases readIds? value <;> rfl
      -- the kind of places, under either name
      case h_5 | h_6 =>
        cases (Text.trim value).isEmpty with
        | false => cases FeatureType.ofName (Text.trim value) <;> rfl
        | true => rfl
      case h_7 => cases Decimal.readNat? UInt64.size (Text.trim value) <;> rfl
      case h_8 => simp_all [Except.map, take]

/-- The names of all parameters. -/
def names : List String :=
  ["q", "viewbox", "bounded", "countrycodes", "exclude_place_ids", "featureType", "featuretype",
    "limit"] ++ PhraseRole.fields.map (·.name)

theorem ofField?_eq_none {key : String} (h : key ∉ PhraseRole.fields.map (·.name)) :
    PhraseRole.ofField? key = none := by
  refine List.find?_eq_none.2 fun role hrole hname => h ?_
  exact List.mem_map.2 ⟨role, hrole, of_decide_eq_true hname⟩

/-- A parameter that is not known says nothing. -/
theorem read_of_not_mem_names {key : String} (h : key ∉ names) (p : Parameters) (value : String) :
    p.read key value = .ok p := by
  obtain ⟨hoption, hfield⟩ := not_or.1 (mt List.mem_append.2 h)
  simp only [List.mem_cons, List.not_mem_nil, or_false, not_or] at hoption
  simp [read, readOption, hoption, StructuredQuery.set?, ofField?_eq_none hfield, Except.map]

theorem exists_toOption_read_eq (key value : String) : ∃ said : Option Parameters, ∀ p : Parameters,
    (p.read key value).toOption = said.map (p.take · (Slot.ofName key)) := by
  refine ⟨(read {} key value).toOption, fun p => ?_⟩
  rw [read_eq]
  cases read {} key value <;> rfl

/-- Parameters can be read in any order unless they are about the same slot. -/
theorem read_comm {key key' : String}
    (h : Slot.ofName key = Slot.ofName key' → Slot.ofName key = .nothing) (p : Parameters)
    (value value' : String) :
    (p.read key value >>= (·.read key' value')).toOption =
      (p.read key' value' >>= (·.read key value)).toOption := by
  obtain ⟨said, hsaid⟩ := exists_toOption_read_eq key value
  obtain ⟨said', hsaid'⟩ := exists_toOption_read_eq key' value'
  simp only [toOption_bind, hsaid, hsaid']
  cases said with
  | none => cases said' <;> rfl
  | some r =>
    cases said' with
    | none => rfl
    | some r' => exact congrArg some (take_comm p r r' h)

end Parameters

namespace SearchRequest

variable {ps qs : List (String × String)}

/-- Parameters that are not known can stand anywhere. -/
theorem ofParameters_eq_of_filter_eq
    (h : qs.filter (·.1 ∈ Parameters.names) = ps.filter (·.1 ∈ Parameters.names)) :
    ofParameters qs = ofParameters ps := by
  have hfilter (ps : List (String × String)) :
      (ps.filter (·.1 ∈ Parameters.names)).foldlM (fun p e => p.read e.1 e.2) ({} : Parameters) =
        ps.foldlM (fun p e => p.read e.1 e.2) {} :=
    foldlM_filter (fun e he p =>
      Parameters.read_of_not_mem_names (of_decide_eq_false he) p e.2) ps {}
  have heq := hfilter qs
  rw [h, hfilter ps] at heq
  rw [ofParameters, ofParameters, heq]

theorem toOption_ofParameters_perm (h : ps.Perm qs) (hkeys : (ps.map (·.1)).Nodup)
    (hkind : ¬ ("featureType" ∈ ps.map (·.1) ∧ "featuretype" ∈ ps.map (·.1))) :
    (ofParameters qs).toOption = (ofParameters ps).toOption := by
  have hslots : ∀ e ∈ ps, ∀ e' ∈ ps, e ≠ e' → Slot.ofName e.1 = Slot.ofName e'.1 →
      Slot.ofName e.1 = .nothing := by
    intro e he e' he' hne hslot
    by_contra hknown
    have hkey : e.1 ≠ e'.1 := fun heq => hne (List.inj_on_of_nodup_map hkeys he he' heq)
    have hmem := List.mem_map_of_mem (f := (·.1)) he
    have hmem' := List.mem_map_of_mem (f := (·.1)) he'
    rcases Slot.eq_of_ofName_eq hslot hknown with heq | ⟨heq, heq'⟩ | ⟨heq, heq'⟩
    · exact hkey heq
    · exact hkind ⟨heq ▸ hmem, heq' ▸ hmem'⟩
    · exact hkind ⟨heq' ▸ hmem', heq ▸ hmem⟩
  have hcomm : ∀ e ∈ ps, ∀ e' ∈ ps, ∀ p : Parameters,
      (p.read e.1 e.2 >>= (·.read e'.1 e'.2)).toOption =
        (p.read e'.1 e'.2 >>= (·.read e.1 e.2)).toOption := by
    intro e he e' he' p
    by_cases heq : e = e'
    · rw [heq]
    · exact Parameters.read_comm (hslots e he e' he' heq) p e.2 e'.2
  rw [ofParameters, ofParameters, toOption_bind, toOption_bind,
    toOption_foldlM_perm h hcomm]

/-- With distinct keys the order of the parameters does not matter: if one order gives a request,
every order gives this request, and if one order fails, every order fails. Parameters that are not
known can be put in anywhere. -/
theorem ofParameters_perm (h : ps.Perm qs) (hkeys : (ps.map (·.1)).Nodup)
    (hkind : ¬ ("featureType" ∈ ps.map (·.1) ∧ "featuretype" ∈ ps.map (·.1))) :
    (∀ r, ofParameters qs = .ok r ↔ ofParameters ps = .ok r) ∧
    ((∃ e, ofParameters qs = .error e) ↔ ∃ e, ofParameters ps = .error e) ∧
    ∀ more : List (String × String),
      more.filter (·.1 ∈ Parameters.names) = ps.filter (·.1 ∈ Parameters.names) →
        ofParameters more = ofParameters ps := by
  have heq := toOption_ofParameters_perm h hkeys hkind
  refine ⟨fun r => ?_, ?_, fun more hmore => ofParameters_eq_of_filter_eq hmore⟩
  · rw [← toOption_eq_some_iff, heq, toOption_eq_some_iff]
  · rw [← toOption_eq_none_iff, heq, toOption_eq_none_iff]

theorem berlin_ofParameters_perm :
    ∃ r, ofParameters [("q", "Berlin"), ("limit", "5")] = .ok r ∧
      ofParameters [("limit", "5"), ("q", "Berlin")] = .ok r ∧
      ofParameters [("debug", "1"), ("q", "Berlin"), ("debug", "2"), ("limit", "5")] = .ok r ∧
      r.limit = some 5 ∧ r.query = .free "Berlin" := by
  have hswap : [("q", "Berlin"), ("limit", "5")].Perm [("limit", "5"), ("q", "Berlin")] :=
    .swap _ _ _
  obtain ⟨hok, -, hmore⟩ := ofParameters_perm hswap (by decide) (by decide)
  have h : ofParameters [("q", "Berlin"), ("limit", "5")] =
      .ok { limit := some 5, query := .free "Berlin" } := by
    rfl
  exact ⟨_, h, (hok _).2 h, (hmore _ (by decide)).trans h, rfl, rfl⟩

end SearchRequest

end Geocoding
