import EditorBridge.Proofs.Bridge.Lists

/-!
# The first definition

A server tells where a symbol is defined by one location, by a list of locations, or by a list of
links. The editor is shown one place, the first one (`firstCounts`). The others have to be there in
the right form all the same: one that is of another kind than the first spoils the list.
-/

namespace EditorBridge

open Json

/-- The reply that a response becomes if it tells where a symbol is defined by some result. -/
def Rpc.Response.defining (r : Rpc.Response) (result : Json) : Option Reply :=
  Reply.ofResponse? Kind.definition.method {r with result := some result}

/-- Whether a response leads to a place by each of some results: there is one reply for all of them,
which shows the place alone, or none if the place is in no file. -/
inductive Rpc.Response.LeadsTo (r : Rpc.Response) (seq : Int64) (results : List Json)
    (l : Server.Location) : Prop
  | nowhere (foreign : Uri.toFile? l.uri = none) (silent : ∀ v ∈ results, r.defining v = none)
  | somewhere (s : Span) (shows : s.Shows l)
      (replied : ∀ v ∈ results,
        r.defining v = some ⟨seq, true, "definition", none, some (.definition [s])⟩)

/-- Whether only the first one of some definitions counts, which is an object. A location leads to
the same place by itself, in a list and before other locations (`location`). A link leads to the
name it targets, alone in a list and before other links (`link`). Before something that is no
location, an object that targets nothing leads nowhere, even if it is a location (`mixed`). -/
structure FirstCounts (members : List (String × Json)) (others : List Json) : Prop where
  location : ∀ (r : Rpc.Response) seq (x : Server.Location),
    r.id = some (.number seq) → seq ≠ handshakeId → x.IsWritten (.object members) →
      (∀ y ∈ others, ∃ l : Server.Location, l.IsWritten y) →
        r.LeadsTo seq
          [.object members, .array [.object members], .array (.object members :: others)] x
  link : ∀ (r : Rpc.Response) seq (x : Server.LocationLink),
    r.id = some (.number seq) → seq ≠ handshakeId → x.IsWritten (.object members) →
      lookup "uri" members = none → (∀ y ∈ others, ∃ l : Server.LocationLink, l.IsWritten y) →
        r.LeadsTo seq [.array [.object members], .array (.object members :: others)]
          ⟨x.targetUri, x.targetSelection⟩
  mixed : ∀ (r : Rpc.Response) y, lookup "targetUri" members = none → y ∈ others →
    (∀ l : Server.Location, ¬ l.IsWritten y) →
      r.defining (.array (.object members :: others)) = none

/-! ### What a list of definitions is read as -/

section

variable {members : List (String × Json)} {others : List Json}

/-- A list that starts with an object is no location, since that would start with its URI. -/
theorem Server.Location.ofJson?_array_object :
    Location.ofJson? (.array (.object members :: others)) = none := by
  rw [ofJson?_eq_none_iff]
  rintro l ⟨range, record, -⟩
  obtain ⟨-, same⟩ := isRecord_array_iff.mp record
  cases (List.cons.inj same).1

theorem Server.Location.ofJson?_eq_none (unnamed : lookup "uri" members = none) :
    Location.ofJson? (.object members) = none := by
  rw [ofJson?_eq_none_iff]
  rintro l ⟨range, record, -⟩
  simp [isRecord_object_iff, unnamed] at record

theorem Server.LocationLink.ofJson?_eq_none (untargeted : lookup "targetUri" members = none) :
    LocationLink.ofJson? (.object members) = none := by
  rw [Option.eq_none_iff_forall_ne_some]
  intro l read
  obtain ⟨_, _, _, record, -⟩ := ofJson?_eq_some_iff.mp read
  simp [isRecord_object_iff, untargeted] at record

/-- A list of which the first item and all others are read starts with what the first one is read
as. -/
theorem Json.exists_listOf?_cons {α : Type} {read : Json → Option α} {v : Json} {a : α}
    (first : read v = some a) (rest : ∀ item ∈ others, ∃ b, read item = some b) :
    ∃ values, listOf? read (.array (v :: others)) = some (a :: values) := by
  obtain ⟨values, found⟩ : ∃ values, listOf? read (.array (v :: others)) = some values :=
    (exists_listOf?_iff fun _ => Iff.rfl).mpr
      ⟨v :: others, rfl, List.forall_mem_cons.mpr ⟨⟨a, first⟩, rest⟩⟩
  obtain ⟨_, same, all⟩ := listOf?_eq_some_iff.mp found
  obtain rfl := Json.array.inj same
  obtain ⟨b, values, here, -, rfl⟩ := List.forall₂_cons_left_iff.mp all
  obtain rfl := Option.some.inj (first.symm.trans here)
  exact ⟨values, found⟩

namespace Server

variable {x : Location}

theorem definitions?_location (written : x.IsWritten (.object members)) :
    definitions? (.object members) = some [x] := by
  rw [definitions?, Location.ofJson?_eq_some_iff.mpr written]

theorem definitions?_locations (written : x.IsWritten (.object members))
    (all : ∀ y ∈ others, ∃ l : Location, l.IsWritten y) :
    ∃ rest, definitions? (.array (.object members :: others)) = some (x :: rest) := by
  obtain ⟨rest, read⟩ := exists_listOf?_cons (Location.ofJson?_eq_some_iff.mpr written)
    (fun y inside => (all y inside).imp fun _ => Location.ofJson?_eq_some_iff.mpr)
  exact ⟨rest, by rw [definitions?, Location.ofJson?_array_object, read]⟩

theorem definitions?_links {x : LocationLink} (written : x.IsWritten (.object members))
    (unnamed : lookup "uri" members = none)
    (all : ∀ y ∈ others, ∃ l : LocationLink, l.IsWritten y) :
    ∃ rest, definitions? (.array (.object members :: others)) =
      some (⟨x.targetUri, x.targetSelection⟩ :: rest) := by
  obtain ⟨rest, read⟩ := exists_listOf?_cons (LocationLink.ofJson?_eq_some_iff.mpr written)
    (fun y inside => (all y inside).imp fun _ => LocationLink.ofJson?_eq_some_iff.mpr)
  have noLocations : listOf? Location.ofJson? (.array (.object members :: others)) = none :=
    listOf?_eq_none List.mem_cons_self (Location.ofJson?_eq_none unnamed)
  exact ⟨_, by rw [definitions?, Location.ofJson?_array_object, noLocations, read, Option.map_some,
    List.map_cons]⟩

theorem definitions?_mixed {y : Json} (untargeted : lookup "targetUri" members = none)
    (inside : y ∈ others) (malformed : ∀ l : Location, ¬ l.IsWritten y) :
    definitions? (.array (.object members :: others)) = none := by
  have noLocations := listOf?_eq_none (List.mem_cons_of_mem (.object members) inside)
    (Location.ofJson?_eq_none_iff.mpr malformed)
  have noLinks : listOf? LocationLink.ofJson? (.array (.object members :: others)) = none :=
    listOf?_eq_none List.mem_cons_self (LocationLink.ofJson?_eq_none untargeted)
  rw [definitions?, Location.ofJson?_array_object, noLocations, noLinks, Option.map_none]

end Server

end

/-! ### The place that is shown -/

section

variable {r : Rpc.Response} {seq : Int64} {results : List Json} {l : Server.Location}

/-- Results that are read as lists with the same first place lead there. -/
theorem Rpc.Response.leadsTo_of_definitions? (sameId : r.id = some (.number seq))
    (numbered : seq ≠ handshakeId)
    (read : ∀ v ∈ results, ∃ rest, Server.definitions? v = some (l :: rest)) :
    r.LeadsTo seq results l := by
  have told : ∀ v ∈ results, r.defining v =
      l.toSpan?.map fun span => Reply.answer .definition seq (.definition [span]) := by
    intro v inside
    obtain ⟨rest, found⟩ := read v inside
    have reply :=
      @Reply.ofResponse?_eq .definition seq v {r with result := some v} numbered sameId rfl
    rw [defining, reply, Body.ofResult?, found, Option.bind_some,
      List.head?_cons, Option.bind_some, Option.map_map]
    rfl
  cases names : l.namesFile with
  | false =>
      have unknown := Server.Location.toSpan?_eq_none names
      refine .nowhere ?_ fun v inside => by rw [told v inside, unknown, Option.map_none]
      simpa [Server.Location.namesFile] using names
  | true =>
      obtain ⟨s, known, shows⟩ := Server.Location.exists_toSpan? names
      exact .somewhere s shows fun v inside => by rw [told v inside, known]; rfl

end

/-- Of the definitions of a symbol, the first one counts. -/
theorem firstCounts (members : List (String × Json)) (others : List Json) :
    FirstCounts members others where
  location := by
    intro r seq x sameId numbered written all
    refine Rpc.Response.leadsTo_of_definitions? sameId numbered ?_
    simp only [List.forall_mem_cons, List.not_mem_nil, false_implies, implies_true, and_true]
    refine ⟨⟨[], Server.definitions?_location written⟩, ?_, ?_⟩
    · exact Server.definitions?_locations written (List.forall_mem_nil _)
    · exact Server.definitions?_locations written all
  link := by
    intro r seq x sameId numbered written unnamed all
    refine Rpc.Response.leadsTo_of_definitions? sameId numbered ?_
    simp only [List.forall_mem_cons, List.not_mem_nil, false_implies, implies_true, and_true]
    refine ⟨?_, ?_⟩
    · exact Server.definitions?_links written unnamed (List.forall_mem_nil _)
    · exact Server.definitions?_links written unnamed all
  mixed := by
    intro r y untargeted inside malformed
    refine Reply.ofResponse?_eq_none rfl ?_
    rw [Body.ofResult?, Server.definitions?_mixed untargeted inside malformed, Option.bind_none]

/-- The members of a location that ends at the greatest position. -/
def toTheEnd : List (String × Json) :=
  [("range", Server.Range.toJson ⟨⟨6, 5⟩, ⟨4294967295, 4294967295⟩⟩),
    ("uri", .string "file:///a.go")]

/-- The members of a link to a name of a file, which tell the whole definition after the name. -/
def toTheName : List (String × Json) :=
  [("targetUri", .string "file:///a.go"),
    ("targetSelectionRange", Server.Range.toJson ⟨⟨6, 5⟩, ⟨6, 9⟩⟩),
    ("targetRange", Server.Range.toJson ⟨⟨6, 0⟩, ⟨8, 1⟩⟩)]

/-- A location leads to the same place with another one after it, and nowhere with a null. A link
leads to the name it targets, with a link to another kind of URI after it. -/
theorem firstCounts_toTheEnd :
    Rpc.Response.LeadsTo ⟨Rpc.version, some (.number 3), none, none⟩ 3
        [.object toTheEnd, .array [.object toTheEnd],
          .array [.object toTheEnd, .array [.string "go", .array [.array [.int 0, .int 0],
            .array [.int 0, .int 1]]]]]
        ⟨"file:///a.go", ⟨⟨6, 5⟩, ⟨4294967295, 4294967295⟩⟩⟩ ∧
      Rpc.Response.LeadsTo ⟨Rpc.version, some (.number 3), none, none⟩ 3
        [.array [.object toTheName],
          .array [.object toTheName, .object [("originSelectionRange", .null),
            ("targetUri", .string "go:fmt"), ("targetRange", Server.Range.toJson ⟨⟨0, 0⟩, ⟨2, 0⟩⟩),
            ("targetSelectionRange", Server.Range.toJson ⟨⟨0, 5⟩, ⟨0, 8⟩⟩)]]]
        ⟨"file:///a.go", ⟨⟨6, 5⟩, ⟨6, 9⟩⟩⟩ ∧
      Rpc.Response.defining ⟨Rpc.version, some (.number 3), none, none⟩
        (.array [.object toTheEnd, .null]) = none := by
  have location : Server.Location.IsWritten
      ⟨"file:///a.go", ⟨⟨6, 5⟩, ⟨4294967295, 4294967295⟩⟩⟩ (.object toTheEnd) :=
    Server.Location.ofJson?_eq_some_iff.mp (by decide)
  have link : Server.LocationLink.IsWritten
      ⟨none, "file:///a.go", ⟨⟨6, 0⟩, ⟨8, 1⟩⟩, ⟨⟨6, 5⟩, ⟨6, 9⟩⟩⟩ (.object toTheName) :=
    Server.LocationLink.ofJson?_eq_some_iff.mp (by decide)
  refine ⟨(firstCounts toTheEnd _).location _ 3 _ rfl (by decide) location ?_,
    (firstCounts toTheName _).link _ 3 _ rfl (by decide) link rfl ?_,
    (firstCounts toTheEnd [.null]).mixed _ .null rfl List.mem_cons_self ?_⟩
  · rw [List.forall_mem_singleton]
    exact ⟨⟨"go", ⟨⟨0, 0⟩, ⟨0, 1⟩⟩⟩, Server.Location.ofJson?_eq_some_iff.mp (by decide)⟩
  · rw [List.forall_mem_singleton]
    exact ⟨⟨none, "go:fmt", ⟨⟨0, 0⟩, ⟨2, 0⟩⟩, ⟨⟨0, 5⟩, ⟨0, 8⟩⟩⟩,
      Server.LocationLink.ofJson?_eq_some_iff.mp (by decide)⟩
  · exact Server.Location.ofJson?_eq_none_iff.mp (by decide)

end EditorBridge
