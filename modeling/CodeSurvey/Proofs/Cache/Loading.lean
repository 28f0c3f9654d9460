import CodeSurvey.Proofs.Cache.Recency

/-!
# Loading a file

A file is read to its end before anything is done to the cache.  So a file that cannot be used
leaves the cache alone, and from one that can be used the entries are merged one after the
other, the last one of them in front.
-/

namespace CodeSurvey
namespace Cache

variable {c : Cache v} {form : Form v} {now : Int} {tree : Files.Tree} {path : Option String}

/-!
# What a file comes to
-/

/-- What the text of a file comes to. -/
inductive Parses (form : Form v) (file content : String) : Except Error (Document v) -> Prop where
  | malformed (hparse : Json.Value.parse content = .error fault) :
      Parses form file content (.error (.json (.ofFault fault)))
  | unversioned (hparse : Json.Value.parse content = .ok raw)
      (hversion : (raw.member? "version" >>= Json.Value.text?) = none) :
      Parses form file content (.error (.invalidFormat (file ++ ": missing version")))
  | foreign (hparse : Json.Value.parse content = .ok raw)
      (hversion : (raw.member? "version" >>= Json.Value.text?) = some version)
      (hother : version ≠ documentVersion) :
      Parses form file content (.error (.unsupportedVersion version))
  /-- The version is right, but not the shape, at whatever place. -/
  | misshapen (hparse : Json.Value.parse content = .ok raw)
      (hversion : (raw.member? "version" >>= Json.Value.text?) = some documentVersion)
      (hdecode : Json.Reader.readValue (Document.decode form) raw = .error fault) :
      Parses form file content (.error (.json (.ofFault fault)))
  | sound (hparse : Json.Value.parse content = .ok raw)
      (hversion : (raw.member? "version" >>= Json.Value.text?) = some documentVersion)
      (hdecode : Json.Reader.readValue (Document.decode form) raw = .ok found) :
      Parses form file content (.ok found)

/-- What the file comes to that a cache would load. -/
inductive Reads (form : Form v) (c : Cache v) (tree : Files.Tree) (path : Option String) :
    Except Error (Document v) -> Prop where
  | unnamed (hpath : path.or c.options.persistPath = none) :
      Reads form c tree path (.error .noPersistPath)
  | unreadable (hpath : path.or c.options.persistPath = some file)
      (hread : tree.readText file = .error cause) :
      Reads form c tree path (.error (fileError cause))
  | parses (hpath : path.or c.options.persistPath = some file)
      (hread : tree.readText file = .ok content) (hparses : Parses form file content outcome) :
      Reads form c tree path outcome

theorem parse_of_malformed {content : String} {fault : Fault} (form : Form v) (file : String)
    (hparse : Json.Value.parse content = .error fault) :
    Document.parse form file content = .error (.json (.ofFault fault)) := by
  unfold Document.parse
  rw [hparse]
  rfl

theorem parse_of_parsed {content : String} {raw : Json.Value} (form : Form v) (file : String)
    (hparse : Json.Value.parse content = .ok raw) :
    Document.parse form file content =
      match raw.member? "version" >>= Json.Value.text? with
      | none => .error (.invalidFormat (file ++ ": missing version"))
      | some version =>
          if version = documentVersion then
            (Json.Reader.readValue (Document.decode form) raw).mapError fun fault =>
              .json (.ofFault fault)
          else .error (.unsupportedVersion version) := by
  unfold Document.parse
  rw [hparse]
  rfl

theorem parses_iff {file content : String} {outcome : Except Error (Document v)} :
    Parses form file content outcome ↔ Document.parse form file content = outcome := by
  constructor
  · intro h
    cases h with
    | malformed hparse => exact parse_of_malformed form file hparse
    | unversioned hparse hversion =>
        rw [parse_of_parsed form file hparse, hversion]
    | foreign hparse hversion hother =>
        rw [parse_of_parsed form file hparse, hversion]
        exact if_neg hother
    | misshapen hparse hversion hdecode =>
        rw [parse_of_parsed form file hparse, hversion]
        simp only [if_true, hdecode]
        rfl
    | sound hparse hversion hdecode =>
        rw [parse_of_parsed form file hparse, hversion]
        simp only [if_true, hdecode]
        rfl
  · rintro rfl
    cases hparse : Json.Value.parse content with
    | error fault =>
        rw [parse_of_malformed form file hparse]
        exact .malformed hparse
    | ok raw =>
        rw [parse_of_parsed form file hparse]
        cases hversion : raw.member? "version" >>= Json.Value.text? with
        | none => exact .unversioned hparse hversion
        | some version =>
            simp only
            split
            next hsame =>
              subst hsame
              cases hdecode : Json.Reader.readValue (Document.decode form) raw with
              | error fault => exact .misshapen hparse hversion hdecode
              | ok found => exact .sound hparse hversion hdecode
            next hother => exact .foreign hparse hversion hother

theorem document_read (form : Form v) (c : Cache v) (tree : Files.Tree) (path : Option String) :
    (c.readDocument form tree path).map Prod.snd =
      match path.or c.options.persistPath with
      | none => .error .noPersistPath
      | some file =>
          match tree.readText file with
          | .error cause => .error (fileError cause)
          | .ok content => Document.parse form file content := by
  unfold readDocument resolvePath
  cases path.or c.options.persistPath with
  | none => rfl
  | some file =>
      show ((tree.readText file).mapError fileError >>= fun content =>
        Document.parse form file content >>= fun found => pure (file, found)).map Prod.snd =
          match tree.readText file with
          | .error cause => .error (fileError cause)
          | .ok content => Document.parse form file content
      cases tree.readText file with
      | error cause => rfl
      | ok content =>
          show (Document.parse form file content >>= fun found => pure (file, found)).map
            Prod.snd = Document.parse form file content
          cases Document.parse form file content with
          | error e => rfl
          | ok found => rfl

theorem reads_iff {outcome : Except Error (Document v)} :
    Reads form c tree path outcome ↔
      (c.readDocument form tree path).map Prod.snd = outcome := by
  rw [document_read]
  constructor
  · intro h
    cases h with
    | unnamed hpath => simp only [hpath]
    | unreadable hpath hread => simp only [hpath, hread]
    | parses hpath hread hparses =>
        simp only [hpath, hread]
        exact parses_iff.mp hparses
  · rintro rfl
    cases hpath : path.or c.options.persistPath with
    | none => exact .unnamed hpath
    | some file =>
        simp only
        cases hread : tree.readText file with
        | error cause => exact .unreadable hpath hread
        | ok content => exact .parses hpath hread (parses_iff.mpr rfl)

/-!
# Merging
-/

namespace History

/-- An entry is merged into a cache, and is touched by that. -/
inductive Merges (h : History v) (e : Entry v) : History v -> Prop where
  /-- The entry takes the place of the one with its key, and nothing of that one stays. -/
  | replaces (hstored : h.cache.stored = before ++ old :: after) (hkey : old.key = e.key)
      (hothers : forall other, other ∈ before ++ after -> other.key ≠ e.key) :
      Merges h e ⟨{ h.cache with stored := e :: (before ++ after) }, e.key :: h.touches⟩
  | inserts (hnew : e.key ∉ h.cache.keys) (hroom : h.cache.size < h.cache.options.maxSize) :
      Merges h e ⟨{ h.cache with stored := e :: h.cache.stored }, e.key :: h.touches⟩
  /-- At full capacity, the entry with the oldest touch has to go. -/
  | evicts (hnew : e.key ∉ h.cache.keys) (hfull : h.cache.options.maxSize ≤ h.cache.size)
      (hstored : h.cache.stored = others ++ [oldest])
      (holdest : forall other, other ∈ others ->
        lastTouch oldest.key h.touches < lastTouch other.key h.touches) :
      Merges h e
        ⟨{ h.cache with stored := e :: others, evictions := h.cache.evictions + 1 },
          e.key :: h.touches⟩

inductive MergesAll : History v -> List (Entry v) -> History v -> Prop where
  | nil : MergesAll h [] h
  | cons (hfirst : Merges h e h') (hrest : MergesAll h' rest h'') : MergesAll h (e :: rest) h''

variable {h h' : History v} {e : Entry v} {entries : List (Entry v)}

theorem Sound.merges (hs : h.Sound) (e : Entry v) :
    Merges h e (h.act form ⟨now, .merge e⟩) := by
  have hact {c' : Cache v} (hmerge : (h.cache.merge e).state = c') :
      h.act form ⟨now, .merge e⟩ = ⟨c', e.key :: h.touches⟩ :=
    congrArg (History.mk · (e.key :: h.touches)) hmerge
  cases hfind : h.cache.find? e.key with
  | some old =>
      have hkey := key_eq_of_find?_eq_some hfind
      have hmem := mem_keys_of_find?_eq_some hfind
      rcases List.append_of_mem (List.mem_of_find?_eq_some hfind) with ⟨before, after, hstored⟩
      have hnodup := hs.ordered.nodup
      have hwithout := without_of_stored hnodup hstored
      rw [hkey] at hwithout
      rw [hact (state_merge_of_mem hmem), hwithout]
      exact .replaces hstored hkey fun other hother =>
        hkey ▸ key_ne_of_stored hnodup hstored hother
  | none =>
      have hnew := find?_eq_none_iff.mp hfind
      cases Nat.lt_or_ge h.cache.size h.cache.options.maxSize with
      | inl hroom =>
          rw [hact (state_merge_of_lt hnew hroom)]
          exact .inserts hnew hroom
      | inr hfull =>
          rcases exists_last hs.roomy hfull with ⟨others, oldest, hstored⟩
          have hordered := hs.ordered
          unfold keys at hordered
          rw [hstored, List.map_append] at hordered
          rw [hact (state_merge_of_le hnew hfull hstored)]
          exact .evicts hnew hfull hstored fun other hother =>
            hordered.lastTouch_lt (List.mem_map_of_mem hother)

theorem Sound.mergesAll (hs : h.Sound) (form : Form v) (now : Int) (entries : List (Entry v)) :
    MergesAll h entries (h.run form (entries.map fun e => ⟨now, .merge e⟩)) := by
  induction entries generalizing h with
  | nil => exact .nil
  | cons e entries ih => exact .cons (hs.merges e) (ih (hs.act ⟨now, .merge e⟩))

theorem Merges.counters (hmerges : Merges h e h') :
    h'.cache.options = h.cache.options ∧ h'.cache.hits = h.cache.hits ∧
      h'.cache.misses = h.cache.misses ∧ h'.cache.expirations = h.cache.expirations := by
  cases hmerges with
  | replaces => exact ⟨rfl, rfl, rfl, rfl⟩
  | inserts => exact ⟨rfl, rfl, rfl, rfl⟩
  | evicts => exact ⟨rfl, rfl, rfl, rfl⟩

theorem MergesAll.counters (hmerges : MergesAll h entries h') :
    h'.cache.options = h.cache.options ∧ h'.cache.hits = h.cache.hits ∧
      h'.cache.misses = h.cache.misses ∧ h'.cache.expirations = h.cache.expirations := by
  induction hmerges with
  | nil => exact ⟨rfl, rfl, rfl, rfl⟩
  | cons hfirst _ ih =>
      rcases hfirst.counters with ⟨hoptions, hhits, hmisses, hexpirations⟩
      rcases ih with ⟨hoptions', hhits', hmisses', hexpirations'⟩
      exact ⟨hoptions'.trans hoptions, hhits'.trans hhits, hmisses'.trans hmisses,
        hexpirations'.trans hexpirations⟩

end History

/-!
# Loading
-/

/-- A file comes to one thing, and that decides what the load does. -/
theorem load_spec (form : Form v) (c : Cache v) (now : Int) (tree : Files.Tree)
    (path : Option String) :
    exists outcome, (forall other, Reads form c tree path other ↔ outcome = other) ∧
      match outcome with
      | .error e =>
          (c.load form now tree path).result = .error e ∧ (c.load form now tree path).state = c
      | .ok found =>
          let live := found.entries.filter fun e => !isExpired c.options now e
          (c.load form now tree path).result = .ok live.length ∧
            c.liveEntries form now tree path = live := by
  refine ⟨(c.readDocument form tree path).map Prod.snd, fun _ => reads_iff, ?_⟩
  cases hread : c.readDocument form tree path with
  | error e =>
      have hlive : c.liveEntries form now tree path = [] := by
        unfold liveEntries
        rw [hread]
      have hstate : (c.load form now tree path).state = c := by
        rw [state_load, hlive]
        rfl
      refine ⟨?_, hstate⟩
      unfold load
      rw [hread]
      rfl
  | ok found =>
      have hlive : c.liveEntries form now tree path =
          found.2.entries.filter fun e => !isExpired c.options now e := by
        unfold liveEntries
        rw [hread]
      exact ⟨hlive ▸ result_load hread, hlive⟩

/-- Whatever was done with a cache before, and whatever the file holds: when the file cannot be
used, for whatever reason, the cache is as it was.  Otherwise the load counts the entries of
the file that have not expired, repeated keys and all, and merges them in the order of the
file; the counters of look-ups and of expired entries stay.  The tree has only what is below
the working directory: a file elsewhere, and one named by an absolute path, is not found. -/
theorem load_run (form : Form v) (options : Options) (ms : List (Moment v)) (now : Int)
    (tree : Files.Tree) (path : Option String) :
    let h := (History.start options).run form ms
    let c := h.cache
    let loaded := c.load form now tree path
    let live (found : Document v) := found.entries.filter fun e => !isExpired c.options now e
    c = (Cache.new options).state.run form ms ∧
    (forall e, loaded.result = .error e ↔ Reads form c tree path (.error e)) ∧
    (forall n, loaded.result = .ok n ↔
      exists found, Reads form c tree path (.ok found) ∧ n = (live found).length) ∧
    (forall e, loaded.result = .error e -> loaded.state = c) ∧
    forall found, Reads form c tree path (.ok found) ->
      History.MergesAll h (live found)
        ⟨loaded.state, ((live found).map Entry.key).reverse ++ h.touches⟩ ∧
      loaded.state.hits = c.hits ∧ loaded.state.misses = c.misses ∧
      loaded.state.expirations = c.expirations := by
  intro h c loaded live
  have hsound : h.Sound := (History.sound_start options).run ms
  refine ⟨History.cache_run form _ ms, ?_⟩
  rcases load_spec form c now tree path with ⟨outcome, hreads, hload⟩
  cases outcome with
  | error e =>
      have hresult : loaded.result = .error e := hload.1
      refine ⟨?_, ?_, fun _ _ => hload.2, ?_⟩
      · intro other
        rw [hreads, hresult, Except.error.injEq, Except.error.injEq]
      · intro n
        rw [hresult]
        refine iff_of_false nofun ?_
        rintro ⟨found, hfound, _⟩
        cases (hreads _).mp hfound
      · intro found hfound
        cases (hreads _).mp hfound
  | ok found =>
      have hresult : loaded.result = .ok (live found).length := hload.1
      have hlive : c.liveEntries form now tree path = live found := hload.2
      refine ⟨?_, ?_, ?_, ?_⟩
      · intro e
        rw [hreads, hresult]
        exact iff_of_false nofun nofun
      · intro n
        rw [hresult]
        constructor
        · intro hn
          exact ⟨found, (hreads _).mpr rfl, (Except.ok.inj hn).symm⟩
        · rintro ⟨other, hother, rfl⟩
          cases (hreads _).mp hother
          rfl
      · intro e he
        cases hresult.symm.trans he
      · intro other hother
        cases (hreads _).mp hother
        have hstate : (live found).foldl (fun c e => (c.merge e).state) c = loaded.state := by
          rw [← hlive]
          exact (state_load c form now tree path).symm
        have hmerges := hsound.mergesAll form now (live found)
        rw [History.run_merge, hstate] at hmerges
        exact ⟨hmerges, hmerges.counters.2⟩

end Cache
end CodeSurvey
