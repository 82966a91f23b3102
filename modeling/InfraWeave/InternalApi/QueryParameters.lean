import InfraWeave.InternalApi.EntryPoints
import InfraWeave.Lib.FormUrlencoded

/-!
# Query parameters of AWS events

An event holds its query parameters decoded.  The entry point writes them into the text of a URI as
they are, and the extractors of the router decode the query of that URI.
-/

namespace InfraWeave
namespace InternalApi

open FormUrlencoded

/-- URIs of the `http` crate, and how their queries are decoded. -/
structure UriParser where
  http : HttpCrate
  /-- The query of a valid URI, empty when there is none. -/
  query : String → List Char
  queryChar : Char → Bool
  /-- The number of bytes that a URI may have. -/
  longest : Nat
  utf8 : List Nat → List Char

variable (uris : UriParser)

/-- The parameters that the extractors see, or none when the request is not built. -/
def seenParameters (payload : Json) : Option (List (String × String)) :=
  if uris.http.validUri (eventUri payload) then
    some <| (parse uris.utf8 (uris.query (eventUri payload))).map fun pair =>
      (.ofList pair.1, .ofList pair.2)
  else none

/-- What is relied on of the URIs that start with the path. -/
structure UriGrammar (path : String) : Prop where
  plain : uris.http.validUri path = true ∧ uris.query path = []
  valid : ∀ text, uris.http.validUri (path ++ "?" ++ text) =
    ((beforeFragment text.toList).all uris.queryChar &&
      decide ((path ++ "?" ++ text).utf8ByteSize ≤ uris.longest))
  query : ∀ text, uris.http.validUri (path ++ "?" ++ text) = true →
    uris.query (path ++ "?" ++ text) = beforeFragment text.toList
  separators : uris.queryChar '=' = true ∧ uris.queryChar '&' = true
  utf8 : ∀ bytes, (uris.utf8 bytes).length ≤ bytes.length

/-- An event for the path with the parameters, all of them texts. -/
structure HasParameters (payload : Json) (path : String) (params : List (String × String)) :
    Prop where
  path : eventPath payload = path
  parameters : payload.get? "queryStringParameters" =
    some (.object (params.map fun param => (param.1, .string param.2)))

/-- The extractors see the parameters of the event and no others. -/
def ParametersSurvive (payload : Json) (params : List (String × String)) : Prop :=
  ∃ seen, seenParameters uris payload = some seen ∧ seen.Perm params

def charPairs (params : List (String × String)) : List (List Char × List Char) :=
  params.map fun param => (param.1.toList, param.2.toList)

/-- Nothing in the parameters has a meaning in a URI, and they fit in one. -/
structure PlainParameters (path : String) (params : List (String × String)) : Prop where
  literal : ∀ pair ∈ charPairs params, LiteralPair pair
  characters : ∀ pair ∈ charPairs params, ∀ c ∈ pair.1 ++ pair.2, uris.queryChar c = true
  short : params ≠ [] →
    (path ++ "?" ++ .ofList (plainText (charPairs params))).utf8ByteSize ≤ uris.longest

variable {uris} {payload : Json} {path : String} {params : List (String × String)}

theorem eventUri_nil (h : HasParameters payload path []) : eventUri payload = path := by
  have hparams : (payload.get? "queryStringParameters").bind Json.asObject = some [] := by
    rw [h.parameters]
    rfl
  rw [eventUri, hparams]
  exact h.path

theorem intercalate_params (params : List (String × String)) :
    "&".intercalate (params.map fun param => param.1 ++ "=" ++ param.2) =
      .ofList (plainText (charPairs params)) := by
  have htexts : (params.map fun param => param.1 ++ "=" ++ param.2).map String.toList =
      (charPairs params).map pairText := by
    simp [charPairs, pairText, Function.comp_def]
  refine String.toList_injective ?_
  rw [String.toList_intercalate, htexts]
  exact String.toList_ofList.symm

theorem eventUri_eq (h : HasParameters payload path params) (hne : params ≠ []) :
    eventUri payload = path ++ "?" ++ .ofList (plainText (charPairs params)) := by
  have hparams : (payload.get? "queryStringParameters").bind Json.asObject =
      some (params.map fun param => (param.1, .string param.2)) := by
    rw [h.parameters]
    rfl
  rw [eventUri, hparams, ← intercalate_params, h.path]
  cases params with
  | nil => exact absurd rfl hne
  | cons param params => simp [List.filterMap_map, Json.asStr]

section

variable (hgrammar : UriGrammar uris path) (h : HasParameters payload path params)
include hgrammar h

/-- The request is built and all its parameters are read back only when they are plain. -/
theorem plainParameters_of_survive (hsurvive : ParametersSurvive uris payload params) :
    PlainParameters uris path params := by
  by_cases hne : params = []
  · subst hne
    exact ⟨by simp [charPairs], by simp [charPairs], by simp⟩
  · rcases hsurvive with ⟨seen, hseen, hperm⟩
    rw [seenParameters, eventUri_eq h hne] at hseen
    split at hseen
    · rename_i hvalid
      rw [hgrammar.query _ hvalid, String.toList_ofList] at hseen
      rw [hgrammar.valid, String.toList_ofList, Bool.and_eq_true, decide_eq_true_eq] at hvalid
      have hread : (parse uris.utf8 (beforeFragment (plainText (charPairs params)))).Perm
          (charPairs params) := by
        have hpairs := hperm.map fun param => (param.1.toList, param.2.toList)
        rw [← Option.some.inj hseen, List.map_map] at hpairs
        simpa [Function.comp_def, charPairs] using hpairs
      have hliteral := (perm_parse_iff hgrammar.utf8 _).1 hread
      rw [beforeFragment_eq_self (fragment_notMem_plainText hliteral), List.all_eq_true] at hvalid
      refine ⟨hliteral, fun pair hpair c hc => hvalid.1 c ?_, fun _ => hvalid.2⟩
      exact mem_intercalate_of_mem (List.mem_map_of_mem hpair)
        (mem_pairText_iff.2 (Or.inr (List.mem_append.1 hc)))
    · cases hseen

theorem survive_of_plainParameters (hplain : PlainParameters uris path params) :
    ParametersSurvive uris payload params := by
  have hnil : uris.utf8 [] = [] :=
    List.length_eq_zero_iff.1 (Nat.le_zero.1 (hgrammar.utf8 []))
  by_cases hne : params = []
  · subst hne
    refine ⟨[], ?_, List.Perm.refl []⟩
    rw [seenParameters, eventUri_nil h, if_pos hgrammar.plain.1, hgrammar.plain.2]
    rfl
  · have hbefore := beforeFragment_eq_self (fragment_notMem_plainText hplain.literal)
    have hvalid : uris.http.validUri
        (path ++ "?" ++ .ofList (plainText (charPairs params))) = true := by
      rw [hgrammar.valid, String.toList_ofList, hbefore, Bool.and_eq_true, decide_eq_true_eq,
        List.all_eq_true]
      refine ⟨fun c hc => ?_, hplain.short hne⟩
      rcases mem_intercalate hc with rfl | ⟨cs, hcs, hmem⟩
      · exact hgrammar.separators.2
      · rcases List.mem_map.1 hcs with ⟨pair, hpair, rfl⟩
        rcases mem_pairText_iff.1 hmem with rfl | hin
        · exact hgrammar.separators.1
        · exact hplain.characters pair hpair c (List.mem_append.2 hin)
    refine ⟨params, ?_, List.Perm.refl params⟩
    rw [seenParameters, eventUri_eq h hne, if_pos hvalid, hgrammar.query _ hvalid,
      String.toList_ofList, parse_of_literal hnil hplain.literal, charPairs, List.map_map]
    simp [Function.comp_def]

/-- The parameters of an event survive when none of their characters has a meaning in a URI or in a
query text. -/
theorem parametersSurvive_iff :
    ParametersSurvive uris payload params ↔ PlainParameters uris path params :=
  ⟨plainParameters_of_survive hgrammar h, survive_of_plainParameters hgrammar h⟩

end

/-! ## An event for the list of modules -/

def modulesPath : String := "/api/v1/modules"

/-- The characters that the `http` crate takes in a query. -/
def isQueryChar (c : Char) : Bool :=
  c == '!' || ('$' ≤ c && c ≤ ';') || c == '=' || '?' ≤ c

def queryText (uri : String) : List Char :=
  beforeFragment ((uri.toList.dropWhile (· != '?')).drop 1)

/-- URIs that start with the path; every byte of a query is read as one character. -/
def modulesUris : UriParser where
  http :=
    { validMethod := fun _ => true
      validUri := fun uri =>
        (queryText uri).all isQueryChar && decide (uri.utf8ByteSize ≤ 65534)
      validName := fun _ => true
      validValue := fun _ => true }
  query := queryText
  queryChar := isQueryChar
  longest := 65534
  utf8 := fun bytes => bytes.map fun value => if value < 128 then Char.ofNat value else '\uFFFD'

theorem queryText_append (text : String) :
    queryText (modulesPath ++ "?" ++ text) = beforeFragment text.toList := by
  have hpath : modulesPath.toList.all (· != '?') = true := by decide
  rw [queryText, String.toList_append, String.toList_append, List.append_assoc,
    List.dropWhile_append_of_pos (List.all_eq_true.1 hpath)]
  rfl

theorem uriGrammar_modules : UriGrammar modulesUris modulesPath where
  plain := ⟨by decide, by decide⟩
  valid text := by
    rw [← queryText_append text]
    rfl
  query text _ := queryText_append text
  separators := ⟨by decide, by decide⟩
  utf8 bytes := by simp [modulesUris]

def modulesEvent (params : List (String × String)) : Json :=
  .object
    [("path", .string modulesPath),
      ("queryStringParameters", .object (params.map fun param => (param.1, .string param.2)))]

theorem hasParameters_modulesEvent (params : List (String × String)) :
    HasParameters (modulesEvent params) modulesPath params where
  path := rfl
  parameters := rfl

theorem parametersSurvive_limit :
    ParametersSurvive modulesUris
      (modulesEvent [("limit", "10"), ("next_token", "eyJQSyI6IngifQ==")])
      [("limit", "10"), ("next_token", "eyJQSyI6IngifQ==")] := by
  refine (parametersSurvive_iff uriGrammar_modules (hasParameters_modulesEvent _)).2 ?_
  have hliteral : (charPairs [("limit", "10"), ("next_token", "eyJQSyI6IngifQ==")]).all
      (fun pair => decide (LiteralPair pair)) = true := by decide
  have hcharacters : (charPairs [("limit", "10"), ("next_token", "eyJQSyI6IngifQ==")]).all
      (fun pair => (pair.1 ++ pair.2).all isQueryChar) = true := by decide
  exact
    { literal := fun pair hpair => of_decide_eq_true (List.all_eq_true.1 hliteral pair hpair)
      characters := fun pair hpair => List.all_eq_true.1 (List.all_eq_true.1 hcharacters pair hpair)
      short := fun _ => by decide }

/-- The token of the key `{"PK":"~~~"}` has a plus sign, which is read back as a space. -/
theorem not_parametersSurvive_token :
    ¬ ParametersSurvive modulesUris (modulesEvent [("next_token", "eyJQSyI6In5+fiJ9")])
      [("next_token", "eyJQSyI6In5+fiJ9")] := by
  intro h
  have hplain := plainParameters_of_survive uriGrammar_modules (hasParameters_modulesEvent _) h
  have hliteral := hplain.literal ("next_token".toList, "eyJQSyI6In5+fiJ9".toList)
    List.mem_cons_self
  exact absurd hliteral.value.plus (by decide)

end InternalApi
end InfraWeave
