import Geocoding.Atlas.Indexed
import Geocoding.Gazetteer.Json
import Geocoding.Geocoder
import Geocoding.Geometry.Display
import Geocoding.Proofs.Ancestry
import Geocoding.Proofs.Brackets
import Geocoding.Proofs.BucketSort
import Geocoding.Proofs.Budget
import Geocoding.Proofs.Costs
import Geocoding.Proofs.CountryTerms
import Geocoding.Proofs.Directions
import Geocoding.Proofs.Exclusion
import Geocoding.Proofs.Fallback
import Geocoding.Proofs.FewestParts
import Geocoding.Proofs.Findable
import Geocoding.Proofs.Frontier
import Geocoding.Proofs.HouseNumbers
import Geocoding.Proofs.IndexedAtlas
import Geocoding.Proofs.IndexedCandidates
import Geocoding.Proofs.Interpolated
import Geocoding.Proofs.LineNumbers
import Geocoding.Proofs.Locating
import Geocoding.Proofs.NameHistory
import Geocoding.Proofs.NormalForms
import Geocoding.Proofs.Origin
import Geocoding.Proofs.Outcome
import Geocoding.Proofs.ParameterOrder
import Geocoding.Proofs.PlanOrder
import Geocoding.Proofs.Planning
import Geocoding.Proofs.PolygonBox
import Geocoding.Proofs.PostcodeMode
import Geocoding.Proofs.PostcodeTerms
import Geocoding.Proofs.RankScope
import Geocoding.Proofs.RankSplit
import Geocoding.Proofs.RareName
import Geocoding.Proofs.Reading
import Geocoding.Proofs.RecordOrder
import Geocoding.Proofs.Recording
import Geocoding.Proofs.Registration
import Geocoding.Proofs.Registry
import Geocoding.Proofs.Resolving
import Geocoding.Proofs.Restriction
import Geocoding.Proofs.Roles
import Geocoding.Proofs.Terms
import Geocoding.Proofs.Tokenizing
import Geocoding.Proofs.Turns
import Geocoding.Proofs.Unrecognised
import Geocoding.Request.Parameters
