import Geocoding.Proofs.Best
import Geocoding.Proofs.Numbering

/-!
# Atlases under other word ids

An atlas that is built with other ids for the words has the same places with other terms
(`Atlas.build_of_renames`). Terms are only ever compared with each other, so it gives the same
answers to queries with these ids (`Atlas.renames_placeIndex`), and to those for points, which have
no terms in them (`Atlas.reverseIndex_rename`).
-/

namespace Geocoding

variable (σ : Renaming)

/-- The place with other ids for the words. -/
@[simps]
def AtlasPlace.rename (p : AtlasPlace) : AtlasPlace :=
  { p with nameTerms := p.nameTerms.rename σ, addressTerms := p.addressTerms.rename σ }

/-- The area of a postcode with other ids for the words. -/
@[simps]
def AtlasPostcode.rename (p : AtlasPostcode) : AtlasPostcode :=
  { p with addressTerms := p.addressTerms.rename σ }

/-- The atlas with other ids for the words. -/
@[simps]
def Atlas.rename (a : Atlas) : Atlas :=
  { a with places := a.places.map (·.rename σ), postcodes := a.postcodes.map (·.rename σ) }

/-! ## Building -/

theorem Vocabulary.nameTerms_of_renames {v v' : Vocabulary} (h : v.Renames σ v') (name : String) :
    v'.nameTerms name = (v.nameTerms name).map σ := by
  unfold nameTerms
  simp only [id?_of_renames σ h, List.map_append, List.map_filterMap, Option.toList_map]

theorem mapM_of_map {ε α β γ : Type} {f : α → Except ε β} {f' : α → Except ε γ} {k : β → γ}
    (h : ∀ x, f' x = k <$> f x) (xs : List α) : xs.mapM f' = List.map k <$> xs.mapM f := by
  induction xs with
  | nil => rfl
  | cons x xs ih => simp [List.mapM_cons, h, ih, bind_map_left]

namespace Atlas

variable {v v' : Vocabulary} (h : v.Renames σ v')

include h

theorem nameTerms_of_renames (p : PlaceRecord) : nameTerms v' p = (nameTerms v p).rename σ := by
  have hnumber : (p.houseNumber.bind fun number => v'.id? .houseNumber (normalize number)) =
      (p.houseNumber.bind fun number => v.id? .houseNumber (normalize number)).map σ := by
    cases p.houseNumber with
    | none => rfl
    | some number => exact Vocabulary.id?_of_renames σ h .houseNumber (normalize number)
  have hnames : p.names.flatMap v'.nameTerms = (p.names.flatMap v.nameTerms).map σ := by
    rw [List.map_flatMap]
    exact List.flatMap_congr fun name _ => Vocabulary.nameTerms_of_renames σ h name
  unfold nameTerms
  rw [TermSet.rename_ofList, List.map_append, hnumber, hnames, Option.toList_map]

theorem addressTerms_of_renames (places : List PlaceRecord) (ids : List Nat) :
    addressTerms v' places ids = (addressTerms v places ids).rename σ := by
  unfold addressTerms
  show List.foldl _ (TermSet.rename σ ∅) _ = _
  refine List.foldl_hom (TermSet.rename σ) ?_
  intro terms p
  rw [nameTerms_of_renames σ h, TermSet.rename_union]

theorem place_of_renames (places : List PlaceRecord) (p : PlaceRecord) :
    place v' places p = (·.rename σ) <$> place v places p := by
  unfold place
  simp only [map_bind, map_pure, nameTerms_of_renames σ h, addressTerms_of_renames σ h]
  rfl

theorem postcode_of_renames (places : List PlaceRecord) (p : PostcodeRecord) :
    postcode v' places p = (·.rename σ) <$> postcode v places p := by
  unfold postcode
  simp only [map_bind, map_pure, addressTerms_of_renames σ h]
  rfl

/-- The atlas of a gazetteer under other ids. -/
theorem build_of_renames (g : Gazetteer) : build v' g = (·.rename σ) <$> build v g := by
  simp only [build]
  cases duplicate? (byId g.places) with
  | some id => rfl
  | none =>
    simp only [mapM_of_map (place_of_renames σ h _), mapM_of_map (postcode_of_renames σ h _),
      bind_map_left, map_bind, map_pure]
    rfl

end Atlas

/-! ## Queries with terms -/

@[simp] theorem AtlasPostcode.id_rename (p : AtlasPostcode) : (p.rename σ).id = p.id := rfl

namespace AtlasPlace

variable (p : AtlasPlace) (terms : TermSet)

@[simp] theorem id_rename : (p.rename σ).id = p.id := rfl

@[simp] theorem hasHouseNumber_rename : (p.rename σ).hasHouseNumber = p.hasHouseNumber := rfl

@[simp] theorem hasPostcode_rename : (p.rename σ).hasPostcode = p.hasPostcode := rfl

@[simp] theorem hasRank_rename : (p.rename σ).hasRank = p.hasRank := rfl

theorem hasName_rename : (p.rename σ).hasName (terms.rename σ) = p.hasName terms :=
  TermSet.all_rename σ fun id => by simp

theorem hasAddress_rename : (p.rename σ).hasAddress (terms.rename σ) = p.hasAddress terms :=
  TermSet.all_rename σ fun id => by simp

theorem countTerms_rename : (p.rename σ).countTerms (terms.rename σ) = p.countTerms terms :=
  TermSet.countP_rename σ fun id => by simp

end AtlasPlace

namespace Atlas

variable (a : Atlas)

theorem postcodeDistance?_rename (postcode : String) (p : AtlasPlace) :
    (a.rename σ).postcodeDistance? postcode (p.rename σ) = a.postcodeDistance? postcode p := by
  simp [postcodeDistance?, List.filter_map, Function.comp_def]

theorem hasHouseNumberChild_rename (p : AtlasPlace) :
    (a.rename σ).hasHouseNumberChild (p.rename σ) = a.hasHouseNumberChild p := by
  funext number
  simp [hasHouseNumberChild, Function.comp_def]

theorem matchesPostcode_rename (query : NamedPlaceQuery) (p : AtlasPlace) :
    (a.rename σ).matchesPostcode (query.rename σ) (p.rename σ) = a.matchesPostcode query p := by
  simp [matchesPostcode, NamedPlaceQuery.rename, postcodeDistance?_rename]

theorem isNamed_rename (query : NamedPlaceQuery) (p : AtlasPlace) :
    (a.rename σ).isNamed (query.rename σ) (p.rename σ) = a.isNamed query p := by
  unfold isNamed
  rw [matchesPostcode_rename]
  simp [NamedPlaceQuery.rename, AtlasPlace.hasName_rename, AtlasPlace.hasAddress_rename]

theorem named_rename (query : NamedPlaceQuery) (p : AtlasPlace) :
    (a.rename σ).named (query.rename σ) (p.rename σ) = a.named query p := by
  simp [named, NamedPlaceQuery.rename, AtlasPlace.countTerms_rename, hasHouseNumberChild_rename,
    postcodeDistance?_rename]

theorem namedPlaces_rename (query : NamedPlaceQuery) :
    (a.rename σ).namedPlaces (query.rename σ) = a.namedPlaces query := by
  have hfound : ((a.rename σ).places.filter ((a.rename σ).isNamed (query.rename σ))).map
      ((a.rename σ).named (query.rename σ)) =
      (a.places.filter (a.isNamed query)).map (a.named query) := by
    simp [List.filter_map, Function.comp_def, isNamed_rename, named_rename]
  unfold namedPlaces
  rw [hfound]
  rfl

theorem postcodesOf_rename (query : PostcodeQuery) :
    (a.rename σ).postcodesOf (query.rename σ) = a.postcodesOf query := by
  have haddress (terms : TermSet) :
      (query.address.rename σ).ids.all (· ∈ terms.rename σ) =
        query.address.ids.all (· ∈ terms) := TermSet.all_rename σ fun id => by simp
  simp only [postcodesOf, rename_postcodes, List.filter_map, ← List.map_take, List.map_map,
    Function.comp_def, AtlasPostcode.rename_addressTerms, PostcodeQuery.rename, haddress]
  rfl

/-! ## Queries without terms -/

theorem countryPlace_rename : (a.rename σ).countryPlace = a.countryPlace := by
  funext code box
  simp only [countryPlace, rename_places, List.filter_map]
  rw [best?_map fun _ _ => rfl, Option.map_map]
  rfl

theorem nearestIds_map (limit : Nat) (found : List (AtlasPlace × Float)) :
    nearestIds limit (found.map fun (p, d) => (p.rename σ, d)) = nearestIds limit found := by
  simp only [nearestIds]
  rw [← List.map_mergeSort, ← List.map_take, List.map_map]
  · rfl
  · exact fun _ _ _ _ => rfl

theorem areaPlaces_rename : (a.rename σ).areaPlaces = a.areaPlaces := by
  funext query
  simp only [areaPlaces, rename_places, List.filter_map, List.map_map]
  refine Eq.trans ?_ (nearestIds_map σ query.limit _)
  rw [List.map_map]
  rfl

theorem houseNumbers_rename : (a.rename σ).houseNumbers = a.houseNumbers := by
  funext query
  simp only [houseNumbers, rename_places, List.filter_map, List.map_map]
  rfl

theorem place?_rename : (a.rename σ).place? = fun id => (a.place? id).map (·.rename σ) := by
  funext id
  simp only [place?, rename_places, List.find?_map]
  rfl

theorem filterMap_place?_rename (ids : List Nat) :
    ids.filterMap (a.rename σ).place? = (ids.filterMap a.place?).map (·.rename σ) := by
  rw [place?_rename, List.map_filterMap]

theorem ofType_rename : (a.rename σ).ofType = a.ofType := by
  funext ids placeType excluded limit
  simp only [ofType, filterMap_place?_rename, List.filter_map, ← List.map_take, List.map_map]
  rfl

theorem otherPostcode_rename : (a.rename σ).otherPostcode = a.otherPostcode := by
  funext ids postcode
  simp only [otherPostcode, filterMap_place?_rename, List.filter_map, List.map_map]
  rfl

theorem withRanks_rename : (a.rename σ).withRanks = a.withRanks := by
  funext source ids ranks allowed
  cases source with
  | primary =>
    simp only [withRanks, filterMap_place?_rename, List.filter_map, List.map_map]
    rfl
  | postcode =>
    have hknown (id : Nat) : ((a.rename σ).postcode? id).isSome = (a.postcode? id).isSome := by
      simp only [postcode?, rename_postcodes, List.find?_map, Option.isSome_map]
      rfl
    simp only [withRanks, hknown]
  | interpolation => rfl
  | parcel => rfl

theorem closest?_rename (parents : List AtlasPlace) (radius : Float) (p : AtlasPlace) :
    closest? (parents.map (·.rename σ)) radius (p.rename σ) = closest? parents radius p := by
  simp only [closest?, List.filter_map, List.map_map]
  rfl

theorem nearby_rename : (a.rename σ).nearby = a.nearby := by
  funext ids placeType near excluded limit
  simp only [nearby, filterMap_place?_rename, rename_places, List.filter_map, List.filterMap_map]
  generalize ids.filterMap a.place? = parents
  refine Eq.trans ?_ (nearestIds_map σ limit _)
  rw [List.map_filterMap]
  refine congrArg _ (List.filterMap_congr fun p _ => ?_)
  show Option.map _ (closest? _ _ (p.rename σ)) = _
  rw [closest?_rename, Option.map_map]
  rfl

/-- The atlas answers to the other ids as before. -/
theorem renames_placeIndex {m : Type → Type} [Monad m] :
    (a.placeIndex (m := m)).Renames σ (a.rename σ).placeIndex where
  namedPlaces query := congrArg pure (namedPlaces_rename σ a query)
  postcodes query := congrArg pure (postcodesOf_rename σ a query)
  others := by
    simp only [placeIndex, countryPlace_rename, areaPlaces_rename, houseNumbers_rename,
      ofType_rename, nearby_rename, otherPostcode_rename, withRanks_rename]
    rfl

/-! ## Queries for points -/

theorem closestFeature_map (point : Point Float) (radius : Float) (places : List AtlasPlace) :
    closestFeature point radius (places.map (·.rename σ)) = closestFeature point radius places := by
  have hwithin : within point radius (places.map (·.rename σ)) =
      (within point radius places).map fun (p, d) => (p.rename σ, d) := by
    simp only [within, List.map_map, List.filter_map]
    rfl
  simp only [closestFeature, hwithin]
  rw [best?_map, Option.map_map]
  · rfl
  · exact fun _ _ => rfl

theorem nearestFeature_rename : (a.rename σ).nearestFeature = a.nearestFeature := by
  funext point maxRank radius
  simp only [nearestFeature, rename_places, List.filter_map]
  exact closestFeature_map σ point radius _

theorem nearestChild_rename : (a.rename σ).nearestChild = a.nearestChild := by
  funext parent point radius
  simp only [nearestChild, rename_places, List.filter_map]
  exact closestFeature_map σ point radius _

theorem areasAround_rename : (a.rename σ).areasAround = a.areasAround := by
  funext point minRank maxRank limit
  simp only [areasAround, rename_places, List.filter_map, List.filterMap_map]
  rfl

theorem placeNodes_rename : (a.rename σ).placeNodes = a.placeNodes := by
  funext query
  simp only [placeNodes, rename_places, List.filter_map, List.map_map]
  rfl

theorem countryAt_rename : (a.rename σ).countryAt = a.countryAt := by
  funext point
  simp only [countryAt, rename_places, List.find?_map, Option.bind_map]
  rfl

theorem countryPlaceNear_rename : (a.rename σ).countryPlaceNear = a.countryPlaceNear := by
  funext code point
  simp only [countryPlaceNear, rename_places, List.filter_map]
  rw [best?_map, Option.map_map]
  · rfl
  · exact fun _ _ => rfl

/-- Queries for points have no terms in them. -/
theorem reverseIndex_rename {m : Type → Type} [Monad m] :
    ((a.rename σ).reverseIndex : ReverseIndex m) = a.reverseIndex := by
  simp only [reverseIndex, nearestFeature_rename, nearestChild_rename, areasAround_rename,
    placeNodes_rename, countryAt_rename, countryPlaceNear_rename]
  rfl

end Atlas

end Geocoding
