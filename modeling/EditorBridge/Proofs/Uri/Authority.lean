import Mathlib.Data.List.TakeWhile
import EditorBridge.Proofs.Uri.Host
import EditorBridge.Uri.File

/-!
# Which locators are of this machine

Between the slashes and the path of a URI stand a host, perhaps a user in front of it and the number
of a service behind it. An `Authority` is these three; reading finds them where writing puts them
(`split_chars`, `chars_split`). A URI of a scheme other than `file` leads to this machine just if
its path starts with a slash and its host is this machine or, outside of the web, none at all:
`LeadsHere` says so of the text of the URI, and `exists_toFile?_iff_leadsHere` that these are the
ones that are taken for files all the same.
-/

namespace EditorBridge.Uri

open Locator

/-- What stands in a URI around the host: what stands in front of the at-sign, if there is one, and
behind the colon, if there is one. -/
structure Authority where
  user : Option (List Char)
  host : List Char
  service : Option (List Char)

namespace Authority

/-- The host with the service behind it. -/
def hostAndService (a : Authority) : List Char :=
  a.host ++ (a.service.map (':' :: ·)).getD []

/-- The text of the three. -/
def chars (a : Authority) : List Char :=
  (a.user.map (· ++ ['@'])).getD [] ++ a.hostAndService

/-- How a text is taken apart. -/
def split (text : List Char) : Authority :=
  let (user, hostAndService) := splitUser text
  let (host, service) := splitService false hostAndService
  ⟨user, host, service⟩

/-! ### The user -/

theorem splitUser_of_notMem {text : List Char} (clean : '@' ∉ text) :
    splitUser text = (none, text) := by
  rw [splitUser, if_neg (by simpa using clean)]

theorem splitUser_at {host : List Char} (clean : '@' ∉ host) (user : List Char) :
    splitUser (user ++ '@' :: host) = (some user, host) := by
  have behind : (user ++ '@' :: host).reverse.takeWhile (· != '@') = host.reverse := by
    rw [List.reverse_append, List.reverse_cons, List.append_assoc, List.takeWhile_append_of_pos]
    · simp
    · intro c inside
      rw [bne_iff_ne]
      rintro rfl
      exact clean (List.mem_reverse.mp inside)
  have size : (user ++ '@' :: host).length - host.length - 1 = user.length := by
    rw [List.length_append, List.length_cons]
    omega
  rw [splitUser, if_pos (by simp), behind, List.reverse_reverse, size, List.take_left]

/-- What stands behind the last at-sign, and what stands in front of it. -/
theorem splitUser_cases (text : List Char) :
    '@' ∉ text ∧ splitUser text = (none, text) ∨
      ∃ user host, text = user ++ '@' :: host ∧ '@' ∉ host ∧
        splitUser text = (some user, host) := by
  by_cases inside : '@' ∈ text
  · obtain ⟨front, back, form, clean⟩ :=
      List.eq_append_cons_of_mem (List.mem_reverse.mpr inside)
    have turned : text = back.reverse ++ '@' :: front.reverse := by
      rw [← List.reverse_reverse text, form]
      simp
    have clean : '@' ∉ front.reverse := mt List.mem_reverse.mp clean
    exact .inr ⟨back.reverse, front.reverse, turned, clean, turned ▸ splitUser_at clean _⟩
  · exact .inl ⟨inside, splitUser_of_notMem inside⟩

/-! ### The service -/

theorem splitService_join (inBrackets : Bool) (text : List Char) :
    (splitService inBrackets text).1 ++
      ((splitService inBrackets text).2.map (':' :: ·)).getD [] = text := by
  induction text generalizing inBrackets with
  | nil => rfl
  | cons c text ih =>
      rw [splitService]
      split
      · next colon =>
          have same : c = ':' := by
            rw [Bool.and_eq_true, beq_iff_eq] at colon
            exact colon.1
          rw [same]
          rfl
      · exact congrArg (c :: ·) (ih _)

theorem splitService_append {host : List Char} (noColon : ':' ∉ host) (noBracket : '[' ∉ host)
    (service : Option (List Char)) :
    splitService false (host ++ (service.map (':' :: ·)).getD []) = (host, service) := by
  induction host with
  | nil => cases service <;> rfl
  | cons c host ih =>
      rw [List.mem_cons, not_or] at noColon noBracket
      have notColon : ¬ (c == ':' && !false) = true := by simpa using Ne.symm noColon.1
      have outside : (if (c == '[') = true then true else if (c == ']') = true then false
          else false) = false := by
        rw [if_neg (by simpa using Ne.symm noBracket.1), ite_self]
      rw [List.cons_append, splitService, if_neg notColon]
      dsimp only
      rw [outside, ih noColon.2 noBracket.2]

/-! ### All three -/

theorem hostAndService_split (text : List Char) :
    (split text).hostAndService = (splitUser text).2 :=
  splitService_join false _

theorem chars_split (text : List Char) : (split text).chars = text := by
  rw [chars, hostAndService_split]
  rcases splitUser_cases text with ⟨-, parts⟩ | ⟨user, host, form, -, parts⟩
  · simp only [split, parts, Option.map_none, Option.getD_none, List.nil_append]
  · simp only [split, parts, Option.map_some, Option.getD_some]
    rw [form, List.append_assoc, List.singleton_append]

/-- Whether the signs between the three can be told from those in them. -/
structure IsClean (a : Authority) : Prop where
  host : ∀ c ∈ Host.marks, c ∉ a.host
  service : ∀ number, a.service = some number → '@' ∉ number

theorem split_chars {a : Authority} (clean : a.IsClean) : split a.chars = a := by
  obtain ⟨user, host, service⟩ := a
  have noSign : '@' ∉ (Authority.mk user host service).hostAndService := by
    rw [hostAndService, List.mem_append, not_or]
    refine ⟨clean.host _ (by decide), ?_⟩
    cases service with
    | none => exact List.not_mem_nil
    | some number => simpa using clean.service number rfl
  have parts : splitUser (Authority.mk user host service).chars =
      (user, (Authority.mk user host service).hostAndService) := by
    cases user with
    | none => exact splitUser_of_notMem noSign
    | some user => simpa [chars] using splitUser_at noSign user
  have inner : splitService false (Authority.mk user host service).hostAndService =
      (host, service) :=
    splitService_append (clean.host _ (by decide)) (clean.host _ (by decide)) service
  simp only [split, parts, inner]

theorem chars_ne_nil {a : Authority} (filled : a.host ≠ []) : a.chars ≠ [] := by
  simp [chars, hostAndService, filled]

theorem isEmpty_hostAndService (a : Authority) :
    a.hostAndService.isEmpty = (a.host.isEmpty && a.service.isNone) := by
  obtain ⟨user, host, service⟩ := a
  cases host <;> cases service <;> rfl

end Authority

/-! ### Locators with a host -/

/-- Whether an authority makes sense and is that of this machine. Outside of the web there may be no
host, but then nothing stands around it, except for a user whose name and password are empty. -/
def Authority.IsHere (a : Authority) : Scheme → Prop
  | .file => False
  | .web => Host.SpellsLocal a.host ∧ a.service.all isServiceNumber
  | .other =>
      a.host = [] ∧ a.service = none ∧ (a.user = none ∨ a.user = some [':']) ∨
        a.host = Host.localName ∧ a.service.all isServiceNumber

theorem Authority.IsHere.isClean {a : Authority} {scheme : Scheme} (here : a.IsHere scheme) :
    a.IsClean := by
  have digits {number : List Char} (numbered : a.service.all isServiceNumber = true)
      (found : a.service = some number) : '@' ∉ number := by
    rw [found, Option.all_some, isServiceNumber, Bool.and_eq_true, List.all_eq_true] at numbered
    exact fun inside => absurd (numbered.1 _ inside) (by decide)
  cases scheme with
  | file => exact here.elim
  | web => exact ⟨fun c mark => Host.notMem_of_spellsLocal here.1 mark, fun _ => digits here.2⟩
  | other =>
      rcases here with ⟨host, service, -⟩ | ⟨host, numbered⟩
      · refine ⟨fun c _ => host ▸ List.not_mem_nil, fun number found => ?_⟩
        rw [service] at found
        cases found
      · exact ⟨fun c mark => host ▸ Host.notMem_localName mark, fun _ => digits numbered⟩

/-- An authority and what follows it are told apart by the first sign that ends an authority. -/
theorem cut_authority {scheme : Scheme} {text rest : List Char}
    (plain : ∀ c ∈ text, scheme.endsAuthority c = false)
    (closed : ∀ c ∈ rest.head?, scheme.endsAuthority c = true) :
    (text ++ rest).takeWhile (fun c => !scheme.endsAuthority c) = text ∧
      (text ++ rest).dropWhile (fun c => !scheme.endsAuthority c) = rest := by
  have goesOn : ∀ c ∈ text, (!scheme.endsAuthority c) = true := fun c inside => by
    rw [plain c inside]
    rfl
  rw [List.takeWhile_append_of_pos goesOn, List.dropWhile_append_of_pos goesOn]
  cases rest with
  | nil => simp
  | cons c rest => simp [closed c rfl]

/-- Whether what has been read is a locator of this machine. -/
def IsLocal (read : Option Locator) : Prop :=
  ∃ l, read = some l ∧ l.host ≠ .elsewhere

/-- The locator that an authority gives with what follows it. -/
def Authority.locator? (a : Authority) (scheme : Scheme) (rest : List Char) : Option Locator :=
  let misplacedUser :=
    a.user == some [] && (a.host.isEmpty && a.service.isNone) && !rest.isEmpty
  let namesUser := a.user.any fun u => !u.isEmpty && u != [':']
  if misplacedUser || !a.service.all isServiceNumber then none
  else if scheme.isSpecial then
    (Host.ofDomain? a.host).map fun host => ofPath scheme host (skipSlash scheme rest)
  else
    match rest, Host.ofOpaque? a.host with
    | '/' :: path, some host =>
        if host == .absent && (a.service.isSome || namesUser) then none
        else some (ofPath scheme host path)
    | _, _ => none

/-- What is read behind the slashes is what the authority there gives. -/
theorem ofAuthority?_eq {a : Authority} {scheme : Scheme} {rest : List Char}
    (read : Authority.split a.chars = a) (plain : ∀ c ∈ a.chars, scheme.endsAuthority c = false)
    (closed : ∀ c ∈ rest.head?, scheme.endsAuthority c = true) :
    ofAuthority? scheme (a.chars ++ rest) = a.locator? scheme rest := by
  obtain ⟨front, behind⟩ := cut_authority plain closed
  have user : (splitUser a.chars).1 = a.user := congrArg Authority.user read
  have inner : (splitUser a.chars).2 = a.hostAndService := by
    rw [← Authority.hostAndService_split, read]
  have host : (splitService false a.hostAndService).1 = a.host := by
    rw [← inner]
    exact congrArg Authority.host read
  have service : (splitService false a.hostAndService).2 = a.service := by
    rw [← inner]
    exact congrArg Authority.service read
  rw [ofAuthority?, front, behind]
  simp only [user, inner, host, service, Authority.isEmpty_hostAndService]
  rfl

/-- A locator of the web is of this machine just if its authority is. -/
theorem isLocal_locator?_web {a : Authority} {rest : List Char} :
    IsLocal (a.locator? .web rest) ↔ a.IsHere .web := by
  unfold Authority.locator?
  dsimp only
  rw [if_pos (show Scheme.web.isSpecial = true from rfl)]
  constructor
  · rintro ⟨l, found, here⟩
    split at found
    · cases found
    · next sound =>
        rw [Option.map_eq_some_iff] at found
        obtain ⟨host, named, rfl⟩ := found
        rw [Bool.or_eq_true, not_or, Bool.not_eq_true', Bool.not_eq_false] at sound
        obtain rfl | ⟨-, spells⟩ := Host.cases_of_ofDomain? named
        · exact absurd rfl here
        · exact ⟨spells, sound.2⟩
  · rintro ⟨spells, numbered⟩
    have filled : a.host.isEmpty = false :=
      List.isEmpty_eq_false_iff.mpr (Host.spellsLocal_ne_nil spells)
    refine ⟨ofPath .web .here (skipSlash .web rest), ?_, nofun⟩
    simp [filled, numbered, Host.ofDomain?_of_spellsLocal spells]

/-- A locator of another scheme is of this machine just if its authority is and a path follows. -/
theorem isLocal_locator?_other {a : Authority} {rest : List Char} :
    IsLocal (a.locator? .other rest) ↔ rest.head? = some '/' ∧ a.IsHere .other := by
  unfold Authority.locator?
  dsimp only
  rw [if_neg (show ¬ Scheme.other.isSpecial = true by decide)]
  constructor
  · rintro ⟨l, found, here⟩
    split at found
    · cases found
    · next sound =>
        rw [Bool.or_eq_true, not_or, Bool.not_eq_true', Bool.not_eq_false] at sound
        split at found
        · next path host named =>
            split at found
            · cases found
            · next sense =>
                obtain rfl := Option.some.inj found
                refine ⟨rfl, ?_⟩
                rcases Host.cases_of_ofOpaque? named with rfl | ⟨rfl, empty⟩ | ⟨-, spelled⟩
                · exact absurd rfl here
                · have alone : a.service = none := by
                    cases service : a.service with
                    | none => rfl
                    | some number => exact absurd (by simp [service]) sense
                  refine .inl ⟨empty, alone, ?_⟩
                  cases user : a.user with
                  | none => exact .inl rfl
                  | some user =>
                      refine .inr (congrArg some ?_)
                      simp_all
                · exact .inr ⟨spelled, sound.2⟩
        · cases found
  · rintro ⟨follows, here⟩
    obtain ⟨path, rfl⟩ := List.head?_eq_some_iff.mp follows
    rcases here with ⟨empty, alone, user⟩ | ⟨named, numbered⟩
    · refine ⟨ofPath .other .absent path, ?_, nofun⟩
      rcases user with user | user <;> simp [empty, alone, user, Host.ofOpaque?]
    · refine ⟨ofPath .other .here path, ?_, nofun⟩
      have filled : Host.localName ≠ [] := by decide
      simp [filled, numbered, named, Host.ofOpaque?_localName]

/-! ### URIs -/

/-- Every text is an authority and what follows it. -/
theorem exists_authority (scheme : Scheme) (text : List Char) :
    ∃ a rest, text = Authority.chars a ++ rest ∧ Authority.split a.chars = a ∧
      (∀ c ∈ a.chars, scheme.endsAuthority c = false) ∧
        ∀ c ∈ rest.head?, scheme.endsAuthority c = true := by
  refine ⟨Authority.split (text.takeWhile fun c => !scheme.endsAuthority c),
    text.dropWhile fun c => !scheme.endsAuthority c, ?_⟩
  rw [Authority.chars_split]
  refine ⟨List.takeWhile_append_dropWhile.symm, rfl, fun c inside => ?_, fun c first => ?_⟩
  · simpa using List.mem_takeWhile_imp inside
  · have stops := List.head?_dropWhile_not (fun c => !scheme.endsAuthority c) text
    rw [Option.mem_def.mp first] at stops
    simpa using stops

/-- Which texts behind the colon of a scheme lead to this machine. Outside of the web that is a path
that starts with one slash, or two slashes, an authority of this machine and a path. On the web
there may be any number of slashes, and the path may be missing. -/
inductive ReachesHere : Scheme → List Char → Prop
  | path {path : List Char} (single : path.head? ≠ some '/') : ReachesHere .other ('/' :: path)
  | other {a : Authority} {path : List Char}
      (plain : ∀ c ∈ a.chars, Scheme.other.endsAuthority c = false) (here : a.IsHere .other) :
      ReachesHere .other ('/' :: '/' :: (a.chars ++ '/' :: path))
  | web {slashes : List Char} {a : Authority} {rest : List Char}
      (all : ∀ c ∈ slashes, Scheme.web.isSlash c = true)
      (plain : ∀ c ∈ a.chars, Scheme.web.endsAuthority c = false)
      (closed : ∀ c ∈ rest.head?, Scheme.web.endsAuthority c = true) (here : a.IsHere .web) :
      ReachesHere .web (slashes ++ (a.chars ++ rest))

/-- The locators of the web that are of this machine. -/
theorem isLocal_web_iff {text : List Char} :
    IsLocal (ofAuthority? .web (text.dropWhile Scheme.web.isSlash)) ↔ ReachesHere .web text := by
  constructor
  · intro found
    obtain ⟨a, rest, form, read, plain, closed⟩ :=
      exists_authority .web (text.dropWhile Scheme.web.isSlash)
    rw [form, ofAuthority?_eq read plain closed, isLocal_locator?_web] at found
    rw [← List.takeWhile_append_dropWhile (p := Scheme.web.isSlash) (l := text), form]
    exact .web (fun c => List.mem_takeWhile_imp) plain closed found
  · rintro (_ | _ | ⟨all, plain, closed, here⟩)
    next slashes a rest =>
    -- The authority names a host, so the slashes end in front of it.
    obtain ⟨c, more, form⟩ : ∃ c more, a.chars = c :: more :=
      List.exists_cons_of_ne_nil (Authority.chars_ne_nil (Host.spellsLocal_ne_nil here.1))
    have stops : ¬ Scheme.web.isSlash c = true := by
      have ends := plain c (by rw [form]; exact List.mem_cons_self)
      intro slash
      rw [Scheme.endsAuthority, slash] at ends
      cases ends
    have skipped : (slashes ++ (a.chars ++ rest)).dropWhile Scheme.web.isSlash =
        a.chars ++ rest := by
      rw [List.dropWhile_append_of_pos all, form, List.cons_append,
        List.dropWhile_cons_of_neg stops]
    rw [skipped, ofAuthority?_eq (Authority.split_chars here.isClean) plain closed,
      isLocal_locator?_web]
    exact here

/-- The locator of a text behind the colon of a scheme other than that of the web and of files. -/
theorem isLocal_other_iff {text : List Char} :
    IsLocal (match text with
      | '/' :: '/' :: rest => ofAuthority? .other rest
      | '/' :: path => some (ofPath .other .absent path)
      | _ => none) ↔ ReachesHere .other text := by
  constructor
  · intro found
    split at found
    · next rest =>
        obtain ⟨a, rest, rfl, read, plain, closed⟩ := exists_authority .other rest
        rw [ofAuthority?_eq read plain closed, isLocal_locator?_other] at found
        obtain ⟨path, rfl⟩ := List.head?_eq_some_iff.mp found.1
        exact .other plain found.2
    · next path single =>
        refine .path fun double => ?_
        obtain ⟨rest, rfl⟩ := List.head?_eq_some_iff.mp double
        exact single rest rfl
    · obtain ⟨l, read, -⟩ := found
      cases read
  · rintro (single | ⟨plain, here⟩ | _)
    · next path =>
        split
        · next form =>
            obtain rfl := (List.cons.inj form).2
            exact absurd rfl single
        · exact ⟨_, rfl, nofun⟩
        · next neither => exact absurd rfl (neither path)
    · next a path =>
        have closed : ∀ c ∈ ('/' :: path).head?, Scheme.other.endsAuthority c = true := by
          simp [Scheme.endsAuthority, Scheme.isSlash]
        change IsLocal (ofAuthority? .other (a.chars ++ '/' :: path))
        rw [ofAuthority?_eq (Authority.split_chars here.isClean) plain closed,
          isLocal_locator?_other]
        exact ⟨rfl, here⟩

/-- Whether a URI has a scheme of its own and leads to this machine. -/
def LeadsHere (uri : String) : Prop :=
  ∃ name text, splitScheme? (strip uri.toList) = some (name, text) ∧
    ReachesHere (Scheme.ofName name) text

/-- Whether a URI is that of a file. -/
def IsOfFile (uri : String) : Prop :=
  (splitScheme? (strip uri.toList)).map Prod.fst = some "file".toList

instance (uri : String) : Decidable (IsOfFile uri) :=
  inferInstanceAs (Decidable ((splitScheme? (strip uri.toList)).map Prod.fst = some "file".toList))

theorem ofName_eq_file {name : List Char} : Scheme.ofName name = .file ↔ name = "file".toList := by
  unfold Scheme.ofName
  split
  · next same => exact iff_of_true rfl same
  · next other =>
      refine iff_of_false ?_ other
      split <;> nofun

theorem LeadsHere.not_isOfFile {uri : String} (here : LeadsHere uri) : ¬ IsOfFile uri := by
  obtain ⟨name, text, parts, here⟩ := here
  intro file
  rw [IsOfFile, parts, Option.map_some, Option.some.injEq, ← ofName_eq_file] at file
  rw [file] at here
  cases here

/-- A URI is taken for that of a file just if its locator is of this machine. -/
theorem exists_toFile?_iff {uri : String} :
    (∃ file, toFile? uri = some file) ↔ IsLocal (ofChars? uri.toList) := by
  constructor
  · rintro ⟨file, taken⟩
    obtain ⟨l, read, path⟩ := Option.bind_eq_some_iff.mp taken
    refine ⟨l, read, fun elsewhere => ?_⟩
    rw [toPath?, elsewhere] at path
    cases path
  · rintro ⟨l, read, here⟩
    have path : ∃ file, l.toPath? = some file := by
      unfold toPath?
      split
      · next elsewhere => exact absurd elsewhere here
      · exact ⟨_, rfl⟩
    obtain ⟨file, path⟩ := path
    exact ⟨file, Option.bind_eq_some_iff.mpr ⟨l, read, path⟩⟩

/-- A URI that is not that of a file is taken for one just if it leads to this machine. -/
theorem exists_toFile?_iff_leadsHere {uri : String} (foreign : ¬ IsOfFile uri) :
    (∃ file, toFile? uri = some file) ↔ LeadsHere uri := by
  rw [exists_toFile?_iff, ofChars?, LeadsHere]
  cases parts : splitScheme? (strip uri.toList) with
  | none =>
      refine iff_of_false ?_ ?_
      · rintro ⟨l, read, -⟩
        cases read
      · rintro ⟨name, text, read, -⟩
        cases read
  | some both =>
      obtain ⟨name, text⟩ := both
      have other : Scheme.ofName name ≠ .file := fun file => foreign <| by
        rw [IsOfFile, parts, Option.map_some, ofName_eq_file.mp file]
      have only : (∃ name' text', some (name, text) = some (name', text') ∧
          ReachesHere (Scheme.ofName name') text') ↔ ReachesHere (Scheme.ofName name) text := by
        simp
      rw [only, Option.bind_some]
      dsimp only
      cases scheme : Scheme.ofName name with
      | file => exact absurd scheme other
      | web => exact isLocal_web_iff
      | other => exact isLocal_other_iff

end EditorBridge.Uri
