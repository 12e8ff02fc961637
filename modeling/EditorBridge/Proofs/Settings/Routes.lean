import EditorBridge.Settings.Routes
import EditorBridge.Proofs.Settings.Spec
import Mathlib.Data.List.Induction

/-!
# Clients for extensions

Extensions are the same if they differ in the points at their start only (`IsSameExtension`). The
clients are registered in their order, each for all its extensions, and what is registered later
takes the place of what was there: the server for an extension is the one of the last client for it
(`Serves`), whatever came before.
-/

namespace EditorBridge

open Client (withoutPoints withoutPoints_replicate)

/-! ### Extensions -/

/-- Whether two extensions are the same up to the points at their start. -/
def IsSameExtension (a b : String) : Prop :=
  ∃ m n rest, rest.head? ≠ some '.' ∧ a.toList = List.replicate m '.' ++ rest ∧
    b.toList = List.replicate n '.' ++ rest

theorem head?_withoutPoints (s : List Char) : (withoutPoints s).head? ≠ some '.' := by
  intro point
  have stops := List.head?_dropWhile_not (· == '.') s
  rw [← withoutPoints, point] at stops
  cases stops

theorem points_withoutPoints (s : List Char) :
    ∃ n, s = List.replicate n '.' ++ withoutPoints s := by
  refine ⟨(s.takeWhile (· == '.')).length, ?_⟩
  have points : s.takeWhile (· == '.') = List.replicate (s.takeWhile (· == '.')).length '.' := by
    refine List.eq_replicate_iff.mpr ⟨rfl, fun c inside => ?_⟩
    simpa using List.mem_takeWhile_imp inside
  rw [← points, withoutPoints, List.takeWhile_append_dropWhile]

theorem plainExtension_eq_iff {a b : String} :
    plainExtension a = plainExtension b ↔ IsSameExtension a b := by
  constructor
  · intro same
    rw [plainExtension, plainExtension, String.ofList_inj] at same
    obtain ⟨m, left⟩ := points_withoutPoints a.toList
    obtain ⟨n, right⟩ := points_withoutPoints b.toList
    exact ⟨m, n, withoutPoints a.toList, head?_withoutPoints _, left, same ▸ right⟩
  · rintro ⟨m, n, rest, first, left, right⟩
    rw [plainExtension, plainExtension, left, right, withoutPoints_replicate m first,
      withoutPoints_replicate n first]

instance (a b : String) : Decidable (IsSameExtension a b) :=
  decidable_of_iff _ plainExtension_eq_iff

/-! ### Clients -/

namespace Client

/-- Whether a client is for the files with an extension. -/
def IsFor (c : Client) (ext : String) : Prop :=
  ∃ listed ∈ c.fileExts, IsSameExtension listed ext

instance (c : Client) (ext : String) : Decidable (c.IsFor ext) :=
  inferInstanceAs (Decidable (∃ listed ∈ c.fileExts, IsSameExtension listed ext))

theorem isFor_iff {c : Client} {ext : String} :
    c.IsFor ext ↔ plainExtension ext ∈ c.fileExts.map plainExtension := by
  simp only [IsFor, ← plainExtension_eq_iff, List.mem_map]

/-- Whether a client is the last one for an extension in a list. -/
def IsLastFor (clients : List Client) (ext : String) (c : Client) : Prop :=
  ∃ earlier later, clients = earlier ++ c :: later ∧ c.IsFor ext ∧
    ∀ other ∈ later, ¬ other.IsFor ext

variable {clients : List Client} {ext : String} {c client : Client}

theorem IsLastFor.mem (last : IsLastFor clients ext c) : c ∈ clients ∧ c.IsFor ext := by
  obtain ⟨earlier, later, rfl, isFor, -⟩ := last
  exact ⟨List.mem_append_right _ List.mem_cons_self, isFor⟩

/-- The last client for an extension is the one that is added, if it is for it, or else it is the
one of before. -/
theorem isLastFor_concat : IsLastFor (clients ++ [client]) ext c ↔
    client.IsFor ext ∧ c = client ∨ ¬ client.IsFor ext ∧ IsLastFor clients ext c := by
  constructor
  · rintro ⟨earlier, later, form, isFor, others⟩
    rcases List.eq_nil_or_concat later with rfl | ⟨later, last, rfl⟩
    · obtain ⟨-, same⟩ := List.append_inj' form rfl
      obtain rfl := List.singleton_inj.mp same
      exact .inl ⟨isFor, rfl⟩
    · rw [List.concat_eq_append, ← List.cons_append, ← List.append_assoc] at form
      obtain ⟨rfl, same⟩ := List.append_inj' form rfl
      obtain rfl := List.singleton_inj.mp same
      refine .inr ⟨others _ (by simp), earlier, later, rfl, isFor, ?_⟩
      intro other inside
      exact others other (by simp [inside])
  · rintro (⟨isFor, rfl⟩ | ⟨notFor, earlier, later, rfl, isFor, others⟩)
    · exact ⟨clients, [], rfl, isFor, nofun⟩
    · refine ⟨earlier, later ++ [client], by simp, isFor, ?_⟩
      intro other inside
      rcases List.mem_append.mp inside with old | new
      · exact others other old
      · rwa [List.mem_singleton.mp new]

/-- If there is a client for an extension, there is a last one. -/
theorem exists_isLastFor (isFor : ∃ c ∈ clients, c.IsFor ext) : ∃ c, IsLastFor clients ext c := by
  induction clients using List.reverseRecOn with
  | nil =>
      obtain ⟨c, inside, -⟩ := isFor
      cases inside
  | append_singleton clients client ih =>
      by_cases last : client.IsFor ext
      · exact ⟨client, isLastFor_concat.mpr (.inl ⟨last, rfl⟩)⟩
      · obtain ⟨c, inside, isFor⟩ := isFor
        rcases List.mem_append.mp inside with old | new
        · obtain ⟨c, isLast⟩ := ih ⟨c, old, isFor⟩
          exact ⟨c, isLastFor_concat.mpr (.inr ⟨last, isLast⟩)⟩
        · rw [List.mem_singleton.mp new] at isFor
          exact absurd isFor last

theorem isSome_spec? (c : Client) (processEnv : Environment) :
    (c.spec? processEnv).isSome = (c.environment? processEnv).isSome :=
  Option.isSome_map

end Client

/-! ### Routes -/

namespace Routes

open Client (IsLastFor)

theorem find?_register (routes : Routes) (exts : List String) (spec : ServerSpec) (ext : String) :
    (routes.register exts spec).find? ext =
      if plainExtension ext ∈ exts.map plainExtension then some spec else routes.find? ext := by
  rw [register, find?, find?]
  induction exts generalizing routes with
  | nil => rfl
  | cons first exts ih =>
      rw [List.foldl_cons, ih, List.map_cons]
      by_cases later : plainExtension ext ∈ exts.map plainExtension
      · rw [if_pos later, if_pos (List.mem_cons_of_mem _ later)]
      · rw [if_neg later]
        by_cases here : plainExtension ext = plainExtension first
        · rw [here, lookup_set_self, if_pos List.mem_cons_self]
        · rw [lookup_set_of_ne spec routes here,
            if_neg (List.not_mem_cons_of_ne_of_not_mem here later)]

/-- Whether routes lead to the last client for each extension. The server for an extension is that
of the last client for it (`last`). There is none for an extension without a client (`none`). -/
structure Serves (routes : Routes) (processEnv : Environment) (clients : List Client) : Prop where
  last : ∀ ext c, IsLastFor clients ext c → routes.find? ext = c.spec? processEnv
  none : ∀ ext, (∀ c ∈ clients, ¬ c.IsFor ext) → routes.find? ext = none

variable {processEnv : Environment} {clients : List Client} {routes : Routes}

/-- A client that is registered takes over the extensions that it is for. -/
theorem Serves.register (serves : routes.Serves processEnv clients) {client : Client}
    {spec : ServerSpec} (built : client.spec? processEnv = some spec) :
    (routes.register client.fileExts spec).Serves processEnv (clients ++ [client]) := by
  have found (ext : String) : (routes.register client.fileExts spec).find? ext =
      if client.IsFor ext then some spec else routes.find? ext := by
    simp only [find?_register, Client.isFor_iff]
  refine ⟨?_, ?_⟩
  · intro ext c isLast
    rw [found]
    rcases Client.isLastFor_concat.mp isLast with ⟨isFor, rfl⟩ | ⟨notFor, earlier⟩
    · rw [if_pos isFor, built]
    · rw [if_neg notFor, serves.last ext c earlier]
  · intro ext nobody
    rw [found, if_neg (nobody client (by simp))]
    exact serves.none ext fun c inside => nobody c (by simp [inside])

theorem ofClients_concat {client : Client} {spec : ServerSpec}
    (done : ofClients processEnv clients = .ok routes)
    (built : client.spec? processEnv = some spec) :
    ofClients processEnv (clients ++ [client]) = .ok (routes.register client.fileExts spec) := by
  rw [ofClients] at done ⊢
  simp only [List.foldlM_append, done, List.foldlM_cons, List.foldlM_nil, built]
  rfl

/-- Clients whose environments can be built are all registered. -/
theorem ofClients_of_built (built : ∀ c ∈ clients, (c.environment? processEnv).isSome) :
    ∃ routes, ofClients processEnv clients = .ok routes ∧ routes.Serves processEnv clients := by
  induction clients using List.reverseRecOn with
  | nil => exact ⟨[], rfl, by rintro ext c ⟨_, _, form, -⟩; simp at form, fun _ _ => rfl⟩
  | append_singleton clients client ih =>
      obtain ⟨routes, done, serves⟩ := ih fun c inside => built c (by simp [inside])
      have last := built client (by simp)
      rw [← Client.isSome_spec?] at last
      obtain ⟨spec, known⟩ := Option.isSome_iff_exists.mp last
      exact ⟨_, ofClients_concat done known, serves.register known⟩

/-- There is a server for an extension if there is a client for it. -/
theorem Serves.contains_iff (serves : routes.Serves processEnv clients)
    (built : ∀ c ∈ clients, (c.environment? processEnv).isSome) (ext : String) :
    routes.contains ext = true ↔ ∃ c ∈ clients, c.IsFor ext := by
  rw [contains]
  constructor
  · intro found
    by_contra nobody
    rw [serves.none ext fun c inside isFor => nobody ⟨c, inside, isFor⟩] at found
    cases found
  · intro somebody
    obtain ⟨c, isLast⟩ := Client.exists_isLastFor somebody
    rw [serves.last ext c isLast, Client.isSome_spec?]
    exact built c isLast.mem.1

end Routes

end EditorBridge
