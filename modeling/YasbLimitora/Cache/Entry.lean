import Mathlib
import YasbLimitora.Cache.Accepted
import YasbLimitora.Lib.JsonUpdate

/-!
# The entry of the cache

What the cache has on the disk is one file, the *entry*: a JSON object of a schema, an instant, the
fingerprint of the configuration, and a document. `YasbLimitora.Cache.load` is `_load_unlocked` of
`cache.py`, of the bytes that were read of the file, if any, and the answer of the clock, which may
be none that can be used; `YasbLimitora.Cache.publish` is `_publish_unlocked`, and gives the bytes
that are handed to the write, if any. What the file system does with them is for its own to say:
`_publish_unlocked` answers `True` when there are such bytes and they have been written.

Both parse what they are given, check it field by field (`YasbLimitora.Cache.validateDocument`) and
write it again, and go on only if the two texts are the same. So the bytes that are accepted can be
said outright: they are those of an entry of a document that the cache takes
(`YasbLimitora.Cache.load_eq_some_iff`), and those of such a document without an error and without a
provider that another attempt might run (`YasbLimitora.Cache.publishable_eq_some_iff`). Each of the
two is proved forth from the text that was written again, and back from the round trip of JSON text
(`Json.Readable.parse_write`).

The checks of `_publish_unlocked` on the error and on the reasons are made by it alone; `_load_unlocked`
leaves them to the validator, which does not make them.
-/

namespace YasbLimitora

namespace Cache

open Json (Fields field? value)
open Encoding (utf8Bytes)

def CACHE_SCHEMA : ℕ := 5

def CACHE_TTL_SECONDS : ℕ := 180

def MAX_CACHE_BYTES : ℕ := 131072

def MAX_CACHE_FINGERPRINT_LENGTH : ℕ := 64

/-- What `config_fingerprint` returns: the digits of a digest. -/
structure Fingerprint where
  text : String
  length_eq : text.length = MAX_CACHE_FINGERPRINT_LENGTH

/-! ### Writing -/

/-- The bytes of some fields of an object, in some order. -/
def objectJson (words : List String) : Json Text → Option Bytes
  | .obj item =>
    if ∀ key ∈ words, (field? key item).isSome then
      Encoding.encodeUtf8
        (Json.Style.compact.write (.obj (words.map fun key => (Text.ofString key, value key item))) ++ [.ch '\n'])
    else none
  | _ => none

/-- `_public_document_json`. -/
def publicDocumentJson (document : Json Text) : Option Bytes := objectJson rootFields document

def envelopeFields : List String := ["schema", "cached_at", "fingerprint", "document"]

/-- `_cache_envelope_json`. -/
def cacheEnvelopeJson (envelope : Json Text) : Option Bytes := objectJson envelopeFields envelope

/-! ### Reading -/

/-- What `json.loads` takes here: no constant, and no key twice. Of a number that is no integer there
is the text that `json.dumps` writes of it again. -/
def entryReader (floats : List Char → Option String) : Json.Reader := ⟨floats, fun _ => none, false⟩

/-- A number that equals `CACHE_SCHEMA`. -/
def isSchema : Json Text → Bool
  | .int n => n = CACHE_SCHEMA
  | .float text => text = "5.0"
  | _ => false

/-- A string that equals a text. -/
def isText (t : Text) : Json Text → Bool
  | .str s => s == t
  | _ => false

/-- An entry of no more than `CACHE_TTL_SECONDS`, and not of the future. -/
def isFresh (now cached : Instant) : Bool :=
  cached.micros ≤ now.micros && now.micros ≤ cached.micros + CACHE_TTL_SECONDS * 1000000

/-- `_safe_mapping`, of a set of fields. -/
def safeFields (fields : List String) : Json Text → Except String Fields
  | .obj item =>
    if ¬((∀ p ∈ item, p.1 ∈ fields.map Text.ofString) ∧ ∀ key ∈ fields.map Text.ofString, key ∈ item.map Prod.fst) then
      .error "invalid cache object"
    else if item.any fun p => isUnsafeKey p.1 then .error "unsafe cache key"
    else .ok item
  | _ => .error "invalid cache object"

variable [UnicodeData] (formatter : TimestampFormatter) (floats : List Char → Option String)

/-- `_load_unlocked`, of what the clock says and what was read of the file. -/
def load (fingerprint : Fingerprint) (now : Option Instant) (file : Option Bytes) : Option Bytes := do
  let raw ← file
  if MAX_CACHE_BYTES < raw.length then none
  else
    let text ← Encoding.utf8 false raw
    let envelope ← Json.parse (entryReader floats) text
    let written ← cacheEnvelopeJson envelope
    if raw ≠ written then none
    else
      let item ← (safeFields envelopeFields envelope).toOption
      if ¬isSchema (value "schema" item) ∨ ¬isText (Text.ofString fingerprint.text) (value "fingerprint" item) then none
      else
        let cached ← (timestamp (value "cached_at" item)).toOption
        let now ← now
        if ¬isFresh now cached then none
        else
          let _ ← (validateDocument formatter (value "document" item)).toOption
          let encoded ← publicDocumentJson (value "document" item)
          if MAX_CACHE_DOCUMENT_BYTES < encoded.length then none else return encoded

/-- A provider that was not run for a reason that may be over with the next attempt. -/
def isTransient (p : ProviderItem) : Bool :=
  p.outcome = .notRun && (p.notRunReason = some "deadline_exhausted" || p.notRunReason = some "guard_wait_timeout")

/-- The part of `_publish_unlocked` before the clock is read: the document that is accepted. -/
def publishable (document : Bytes) : Option (Json Text) := do
  if MAX_CACHE_DOCUMENT_BYTES < document.length then none
  else
    let text ← Encoding.utf8 false document
    let value ← Json.parse (entryReader floats) text
    if document.getLast? ≠ some 0x0A then none
    else
      let d ← (validateDocument formatter value).toOption
      if d.executionError.isSome ∨ d.providers.any isTransient then none
      else
        let canonical ← publicDocumentJson value
        if document ≠ canonical ∨ MAX_CACHE_DOCUMENT_BYTES < canonical.length then none else return value

/-- The value of an entry. -/
def envelope (schema : Json Text) (fingerprint : Fingerprint) (cached : Instant) (document : Json Text) : Json Text :=
  .obj [(Text.ofString "schema", schema), (Text.ofString "cached_at", .str (Text.ofString cached.text)),
    (Text.ofString "fingerprint", .str (Text.ofString fingerprint.text)), (Text.ofString "document", document)]

/-- `_publish_unlocked`: the bytes that it writes. -/
def publish (fingerprint : Fingerprint) (now : Option Instant) (document : Bytes) : Option Bytes := do
  let value ← publishable formatter floats document
  let now ← now
  let written ← cacheEnvelopeJson (envelope (.int CACHE_SCHEMA) fingerprint now value)
  if MAX_CACHE_BYTES < written.length then none else return written

/-! ### What is written again -/

section Written

omit [UnicodeData]

variable {words : List String} {item : Fields} {b : Bytes} {t : Text}

theorem eq_of_encodeUtf8 (h : Encoding.encodeUtf8 t = some b) : b = utf8Bytes t ∧ Encoding.Spelled t :=
  Encoding.utf8_eq_some_iff.1 (Encoding.encodeUtf8_eq_some_iff.1 h)

theorem encodeUtf8_of_spelled (h : Encoding.Spelled t) : Encoding.encodeUtf8 t = some (utf8Bytes t) := if_pos h

theorem objectJson_of_keys (hwords : words.Nodup) (h : item.map Prod.fst = words.map Text.ofString) :
    objectJson words (.obj item) = Encoding.encodeUtf8 (Json.Style.compact.write (.obj item) ++ [.ch '\n']) := by
  have hall : ∀ key ∈ words, (field? key item).isSome := by
    intro key hkey
    rw [Option.isSome_iff_ne_none]
    intro hnone
    refine Json.get?_eq_none_iff.1 hnone ?_
    rw [h]
    exact List.mem_map_of_mem hkey
  rw [objectJson, if_pos hall, ← Json.fields_eq hwords h]

theorem objectJson_eq_some {x : Json Text} (h : objectJson words x = some b) : ∃ item, x = .obj item ∧
    b = utf8Bytes
      (Json.Style.compact.write (.obj (words.map fun key => (Text.ofString key, value key item))) ++ [.ch '\n']) := by
  unfold objectJson at h
  split at h
  · next item =>
    split_ifs at h
    exact ⟨item, rfl, (eq_of_encodeUtf8 h).1⟩
  · cases h

/-- The bytes of a document. -/
def documentBytes (d : Document) : Bytes := utf8Bytes (Text.ofChars d.encode)

theorem length_utf8Bytes (l : List Char) : (utf8Bytes (Text.ofChars l)).length = Json.utf8Size l := by
  induction l with
  | nil => rfl
  | cons c l ih =>
    have hspell : (Encoding.spell c.toNat).length = c.utf8Size := by
      unfold Encoding.spell Char.utf8Size
      simp only [UInt32.le_iff_toNat_le, UInt32.toNat_ofNatLT, show c.val.toNat = c.toNat from rfl]
      split_ifs <;> first | rfl | omega
    rw [Text.ofChars_cons, Encoding.utf8Bytes_cons, List.length_append, ih, Json.utf8Size_cons]
    exact congrArg (· + _) hspell

theorem length_documentBytes (d : Document) : (documentBytes d).length = d.size := length_utf8Bytes _

/-- The text of a document, and a line feed. -/
theorem write_document (d : Document) :
    Json.Style.compact.write d.json.spell ++ [.ch '\n'] = Text.ofChars d.encode := by
  rw [Json.write_spell, Document.encode, Text.ofChars_append]
  rfl

theorem keys_document (d : Document) : ∃ item, d.json.spell = .obj item ∧
    item.map Prod.fst = rootFields.map Text.ofString := ⟨_, rfl, rfl⟩

/-- What is written of the value of a document are its bytes. -/
theorem publicDocumentJson_spell (d : Document) : publicDocumentJson d.json.spell = some (documentBytes d) := by
  obtain ⟨item, hitem, hkeys⟩ := keys_document d
  rw [publicDocumentJson, hitem, objectJson_of_keys (by decide) hkeys, ← hitem, write_document]
  exact encodeUtf8_of_spelled (Encoding.spelled_ofChars _)

end Written

/-! ### What is read back -/

section ReadBack

omit [UnicodeData]

theorem plain_error (e : ErrorItem) : e.json.spell.Plain := by
  refine Json.plain_spell_obj errorFields rfl (by decide) ?_
  simp only [List.forall_mem_cons]
  exact ⟨Json.plain_str _, Json.plain_str _, List.forall_mem_nil _⟩

theorem plain_quantityItem (q : QuantityItem) : q.json.spell.Plain := by
  refine Json.plain_spell_obj quantityFields rfl (by decide) ?_
  simp only [List.forall_mem_cons]
  exact ⟨Json.plain_str _, Json.plain_str _, Json.plain_str _, List.forall_mem_nil _⟩

theorem plain_texts {α : Type} (f : α → String) (o : Option α) : (Json.orNull (fun a => .str (f a)) o).spell.Plain :=
  Json.plain_spell_orNull fun _ _ => Json.plain_str _

theorem plain_windowItem (w : WindowItem) : w.json.spell.Plain := by
  refine Json.plain_spell_obj windowFields rfl (by decide) ?_
  simp only [List.forall_mem_cons]
  exact ⟨Json.plain_str _, Json.plain_str _, Json.plain_str _, plain_texts id _, Json.plain_str _, plain_texts id _,
    Json.plain_spell_orNull fun q _ => plain_quantityItem q, Json.plain_spell_orNull fun q _ => plain_quantityItem q,
    Json.plain_spell_orNull fun q _ => plain_quantityItem q, plain_texts _ _, List.forall_mem_nil _⟩

theorem plain_depleted (d : DepletedItem) : d.json.spell.Plain := by
  refine Json.plain_spell_obj depletedFields rfl (by decide) ?_
  simp only [List.forall_mem_cons]
  exact ⟨Json.plain_str _, Json.plain_str _, Json.plain_str _, plain_texts id _, Json.plain_str _, plain_texts id _,
    Json.plain_str _, List.forall_mem_nil _⟩

/-- A count that `json.loads` reads. -/
def CreditsItem.IsShort (c : CreditsItem) : Prop := (DecimalText.natText c.availableCount).length ≤ Json.maxDigits

theorem plain_credits {c : CreditsItem} (h : CreditsItem.IsShort c) : c.json.spell.Plain := by
  refine Json.plain_spell_obj resetFields rfl (by decide) ?_
  simp only [List.forall_mem_cons]
  refine ⟨?_, plain_texts _ _, List.forall_mem_nil _⟩
  change (DecimalText.natText (c.availableCount : ℤ).natAbs).length ≤ Json.maxDigits
  rwa [Int.natAbs_natCast]

theorem plain_general (g : GeneralItem) : g.json.spell.Plain := by
  refine Json.plain_spell_obj generalFields rfl (by decide) ?_
  simp only [List.forall_mem_cons]
  exact ⟨Json.plain_str _, Json.plain_str _, Json.plain_str _, List.forall_mem_nil _⟩

theorem plain_providerItem {p : ProviderItem} (h : ∀ c, p.rateLimitResetCredits = some c → CreditsItem.IsShort c) :
    p.json.spell.Plain := by
  refine Json.plain_spell_obj providerFields rfl (by decide) ?_
  simp only [List.forall_mem_cons]
  exact ⟨Json.plain_str _, Json.plain_str _, plain_texts _ _, plain_texts _ _, plain_texts _ _, plain_texts _ _,
    plain_texts _ _, plain_texts id _, Json.plain_spell_arr fun w _ => plain_windowItem w,
    Json.plain_spell_orNull fun c hc => plain_credits (h c hc), Json.plain_spell_orNull fun e _ => plain_error e,
    plain_texts id _, Json.plain_spell_orNull fun d _ => plain_depleted d, Json.plain_str _, Json.plain_str _,
    Json.plain_str _, List.forall_mem_nil _⟩

/-- A document whose counts `json.loads` reads. -/
def HasShortCounts (d : Document) : Prop :=
  ∀ p ∈ d.providers, ∀ c, p.rateLimitResetCredits = some c → CreditsItem.IsShort c

/-- Such a document is read back from its text. -/
theorem plain_document {d : Document} (h : HasShortCounts d) : d.json.spell.Plain := by
  refine Json.plain_spell_obj rootFields rfl (by decide) ?_
  simp only [List.forall_mem_cons]
  exact ⟨Json.plain_str _, Json.plain_spell_orNull fun e _ => plain_error e, plain_general _,
    Json.plain_spell_arr fun p hp => plain_providerItem (h p hp), List.forall_mem_nil _⟩

end ReadBack

section Accepted

variable {formatter : TimestampFormatter}

omit [UnicodeData] in
/-- The lines of reset credits say their count, which `str` must write. -/
theorem isShort_of_creditsLines {c : CreditsItem} {lines : List String}
    (h : creditsLines formatter (some c) = .ok lines) : CreditsItem.IsShort c := by
  obtain ⟨count, hcount, -⟩ := bind_eq_ok_iff.1 h
  unfold strInt at hcount
  split_ifs at hcount with hlong
  exact not_lt.1 hlong

/-- What is shown of a snapshot says the count of its reset credits. -/
theorem isShort_of_presentation {facts : ProviderFacts} {limit : ℕ} {shown : Presentation}
    (houtcome : facts.outcome = .snapshot) (h : presentation formatter facts limit = .ok shown) :
    ∀ c, facts.rateLimitResetCredits = some c → CreditsItem.IsShort c := by
  intro c hc
  unfold presentation at h
  rw [if_neg (not_not.2 houtcome)] at h
  split at h
  · obtain ⟨lines, hlines, -⟩ := bind_eq_ok_iff.1 h
    rw [hc] at hlines
    exact isShort_of_creditsLines hlines
  · cases h

/-- There are no reset credits without a snapshot. -/
theorem CacheableFacts.credits_eq_none {facts : ProviderFacts} (h : CacheableFacts facts) (hne : facts.outcome ≠ .snapshot) :
    facts.rateLimitResetCredits = none := by
  rcases h with ⟨provider, s, -⟩ | provider | provider
  · exact absurd rfl hne
  · rfl
  · rfl

/-- **The counts of a document that the cache takes** are read by `json.loads`, since its texts say
them. -/
theorem Cacheable.hasShortCounts {d : Document} (h : Cacheable formatter d) : HasShortCounts d := by
  intro p hp
  obtain ⟨limit, -, hcandidate, -⟩ := exists_candidate h.texts
  obtain ⟨canonical, hcanonical, -⟩ := bind_eq_ok_iff.1 hcandidate
  obtain ⟨q, hq⟩ := ok_of_mapM hcanonical hp
  obtain ⟨shown, hshown, -⟩ := bind_eq_ok_iff.1 hq
  by_cases houtcome : p.outcome = .snapshot
  · exact isShort_of_presentation houtcome hshown
  · rw [(h.providers p hp).facts.credits_eq_none houtcome]
    exact fun _ => nofun

end Accepted

/-! ### Entries -/

section Entries

omit [UnicodeData]

variable {floats : List Char → Option String} {schema : Json Text} {fingerprint : Fingerprint} {cached : Instant}
  {d : Document}

/-- The bytes of an entry. -/
def entryBytes (schema : Json Text) (fingerprint : Fingerprint) (cached : Instant) (d : Document) : Bytes :=
  utf8Bytes (Json.Style.compact.write (envelope schema fingerprint cached d.json.spell) ++ [.ch '\n'])

theorem isSchema_iff {x : Json Text} : isSchema x = true ↔ x = .int CACHE_SCHEMA ∨ x = .float "5.0" := by
  rcases x with _ | b | n | t | s | items | fields
  case int => simp [isSchema]
  case float => simp [isSchema]
  all_goals simp [isSchema]

theorem isText_iff {t : Text} {x : Json Text} : isText t x = true ↔ x = .str t := by
  rcases x with _ | b | n | s | s | items | fields
  case str => simp [isText]
  all_goals simp [isText]

/-- An entry can be spelled, and a line feed after it. -/
theorem spelled_envelope (h : isSchema schema = true) :
    Encoding.Spelled (Json.Style.compact.write (envelope schema fingerprint cached d.json.spell) ++ [.ch '\n']) := by
  refine Encoding.spelled_append.2 ⟨?_, Encoding.spelled_ofChars ['\n']⟩
  refine (Json.Style.spelled_write_words_iff envelopeFields rfl).2 ?_
  have htext : ∀ s : String, Encoding.Spelled (Json.Style.compact.write (.str (Text.ofString s))) := fun s =>
    Json.Style.spelled_quote_iff.2 (Encoding.spelled_ofChars _)
  have hschema : Encoding.Spelled (Json.Style.compact.write schema) := by
    rcases isSchema_iff.1 h with rfl | rfl
    · exact Encoding.spelled_ofChars _
    · exact Encoding.spelled_ofChars _
  have hdocument : Encoding.Spelled (Json.Style.compact.write d.json.spell) := by
    rw [Json.write_spell]
    exact Encoding.spelled_ofChars _
  simp only [List.forall_mem_cons]
  exact ⟨hschema, htext _, htext _, hdocument, List.forall_mem_nil _⟩

/-- What is written of an entry are its bytes. -/
theorem cacheEnvelopeJson_envelope (h : isSchema schema = true) :
    cacheEnvelopeJson (envelope schema fingerprint cached d.json.spell) = some (entryBytes schema fingerprint cached d) := by
  refine (objectJson_of_keys (by decide) ?_).trans (encodeUtf8_of_spelled (spelled_envelope h))
  rfl

/-- The other way to write the number of the schema is read as it stands. -/
theorem readsNumber_schema (h : floats ['5', '.', '0'] = some "5.0") :
    Json.ReadsNumber (entryReader floats) "5.0" where
  begins := ⟨'5', ['.', '0'], rfl, Or.inl rfl⟩
  ascii := by
    simp only [show "5.0".toList = ['5', '.', '0'] from rfl, List.forall_mem_cons]
    exact ⟨by decide, by decide, by decide, List.forall_mem_nil _⟩
  reads := by
    intro rest hends
    have hdigits : Json.spanDigits (.ch '0' :: rest) = (['0'], rest) := by
      rw [Json.spanDigits, if_pos (show DecimalText.isDigit '0' = true from rfl), Json.spanDigits_ends hends]
    have hfraction : Json.fraction (.ch '.' :: .ch '0' :: rest) = (['.', '0'], rest) := by
      rw [Json.fraction, hdigits]
    have hwhole : Json.wholePart (Json.minus (.ch '5' :: .ch '.' :: .ch '0' :: rest)).2
        = some (['5'], .ch '.' :: .ch '0' :: rest) := rfl
    change Json.parseNumber (entryReader floats) (.ch '5' :: .ch '.' :: .ch '0' :: rest) = _
    rw [Json.parseNumber, hwhole, Option.bind_eq_bind, Option.bind_some]
    simp only [hfraction, Json.exponent_of_endsNumber hends]
    change (floats ['5', '.', '0']).bind _ = _
    rw [h]
    rfl

/-- **An entry is read back from its bytes.** -/
theorem readable_envelope (hfloats : floats ['5', '.', '0'] = some "5.0") (hschema : isSchema schema = true)
    (hcounts : HasShortCounts d) :
    (envelope schema fingerprint cached d.json.spell).Readable (entryReader floats) := by
  have hnumber : schema.Readable (entryReader floats) := by
    rcases isSchema_iff.1 hschema with rfl | rfl
    · change (DecimalText.natText 5).length ≤ Json.maxDigits
      decide
    · exact readsNumber_schema hfloats
  have hkey : ∀ s : String, (Text.ofString s).Paired := fun s => Text.paired_ofChars _
  refine ⟨?_, hkey _, hnumber, hkey _, hkey _, hkey _, hkey _, hkey _, (plain_document hcounts).readable _, trivial⟩
  exact (by decide : (envelopeFields.map Text.ofString).Nodup)

theorem parse_envelope (hfloats : floats ['5', '.', '0'] = some "5.0") (hschema : isSchema schema = true)
    (hcounts : HasShortCounts d) : ∃ text, Encoding.utf8 false (entryBytes schema fingerprint cached d) = some text ∧
      Json.parse (entryReader floats) text = some (envelope schema fingerprint cached d.json.spell) :=
  ⟨_, Encoding.utf8_utf8Bytes (spelled_envelope hschema),
    (readable_envelope hfloats hschema hcounts).parse_write Json.Style.sound_compact (Or.inr rfl)⟩

/-- An entry takes little more than its document. -/
theorem length_entryBytes_le (hschema : isSchema schema = true) (hsize : d.size ≤ MAX_CACHE_DOCUMENT_BYTES) :
    (entryBytes schema fingerprint cached d).length ≤ MAX_CACHE_BYTES := by
  have hkey : ∀ s : String, Json.byteSize (Json.Style.compact.quote (Text.ofString s)) ≤ 6 * s.length + 2 := by
    intro s
    rw [← length_ofString]
    exact Json.byteSize_quote_le _
  have hstr : ∀ t : Text, Json.Style.compact.write (.str t) = Json.Style.compact.quote t := fun _ => rfl
  have hnumber : Json.byteSize (Json.Style.compact.write schema) ≤ 3 := by
    rcases isSchema_iff.1 hschema with rfl | rfl <;> decide
  have hcached : cached.text.length = 27 := by
    simp only [Instant.text, Instant.chars, String.length_ofList, List.length_append, DecimalText.length_padded,
      List.length_singleton]
  have hdocument : Json.byteSize (Json.Style.compact.write d.json.spell) + 1 = d.size := by
    rw [← length_documentBytes, documentBytes, ← write_document, Encoding.utf8Bytes_append, List.length_append]
    rfl
  have hbytes : (entryBytes schema fingerprint cached d).length =
      Json.byteSize (Json.Style.compact.write (envelope schema fingerprint cached d.json.spell)) + 1 := by
    rw [entryBytes, Encoding.utf8Bytes_append, List.length_append]
    rfl
  have hobject := Json.byteSize_write_obj
    [(Text.ofString "schema", schema), (Text.ofString "cached_at", .str (Text.ofString cached.text)),
      (Text.ofString "fingerprint", .str (Text.ofString fingerprint.text)), (Text.ofString "document", d.json.spell)]
  simp only [List.map_cons, List.map_nil, List.sum_cons, List.sum_nil, Json.fieldSize, hstr] at hobject
  have h1 := hkey "schema"
  have h2 := hkey "cached_at"
  have h3 := hkey "fingerprint"
  have h4 := hkey "document"
  have h5 := hkey cached.text
  have h6 := hkey fingerprint.text
  rw [fingerprint.length_eq] at h6
  rw [hcached] at h5
  simp only [show "schema".length = 6 from rfl, show "cached_at".length = 9 from rfl,
    show "fingerprint".length = 11 from rfl, show "document".length = 8 from rfl] at h1 h2 h3 h4
  rw [hbytes, envelope]
  unfold MAX_CACHE_DOCUMENT_BYTES at hsize
  unfold MAX_CACHE_BYTES
  unfold MAX_CACHE_FINGERPRINT_LENGTH at h6
  omega

theorem safeFields_eq_ok {words : List String} {x : Json Text} {item : Fields} (h : safeFields words x = .ok item) :
    x = .obj item := by
  unfold safeFields at h
  split at h
  · split_ifs at h
    obtain rfl := Except.ok.inj h
    rfl
  · cases h

/-- The keys of an entry pass their check. -/
theorem safeFields_envelope {x : Json Text} : safeFields envelopeFields (envelope schema fingerprint cached x) = .ok
    [(Text.ofString "schema", schema), (Text.ofString "cached_at", .str (Text.ofString cached.text)),
      (Text.ofString "fingerprint", .str (Text.ofString fingerprint.text)), (Text.ofString "document", x)] := by
  have hsafe : ∀ word ∈ envelopeFields, isUnsafeKey (Text.ofString word) = false := by decide +kernel
  have hmem : ∀ {words : List String} {item : Fields}, item.map Prod.fst = words.map Text.ofString →
      (∀ word ∈ words, isUnsafeKey (Text.ofString word) = false) → safeFields words (.obj item) = .ok item := by
    intro words item hkeys hsafe
    have hin : ∀ p ∈ item, p.1 ∈ words.map Text.ofString := by
      intro p hp
      rw [← hkeys]
      exact List.mem_map_of_mem hp
    have hnone : ¬(item.any fun p => isUnsafeKey p.1) = true := by
      intro hany
      obtain ⟨p, hp, hunsafe⟩ := List.any_eq_true.1 hany
      obtain ⟨word, hword, hkey⟩ := List.mem_map.1 (hin p hp)
      rw [← hkey, hsafe word hword] at hunsafe
      cases hunsafe
    unfold safeFields
    dsimp only
    rw [if_neg (not_not.2 ⟨hin, fun key hkey => hkeys ▸ hkey⟩), if_neg hnone]
  exact hmem rfl hsafe

end Entries

section Load

variable {formatter : TimestampFormatter} {floats : List Char → Option String} {fingerprint : Fingerprint}
  {now : Option Instant} {file : Option Bytes} {b : Bytes}

/-- **What is loaded**: the document of an entry that is fresh, if it is one that the cache takes. -/
theorem load_eq_some_iff (hfloats : floats ['5', '.', '0'] = some "5.0") :
    load formatter floats fingerprint now file = some b ↔ ∃ schema cached d instant, now = some instant ∧
      file = some (entryBytes schema fingerprint cached d) ∧ isSchema schema = true ∧ isFresh instant cached = true ∧
      Cacheable formatter d ∧ b = documentBytes d := by
  constructor
  · intro h
    unfold load at h
    obtain ⟨raw, hraw, h⟩ := Option.bind_eq_some_iff.1 h
    split_ifs at h with hlong
    obtain ⟨text, -, h⟩ := Option.bind_eq_some_iff.1 h
    obtain ⟨x, -, h⟩ := Option.bind_eq_some_iff.1 h
    obtain ⟨written, hwritten, h⟩ := Option.bind_eq_some_iff.1 h
    split_ifs at h with hsame
    obtain ⟨item, hitem, h⟩ := Option.bind_eq_some_iff.1 h
    split_ifs at h with hfields
    obtain ⟨cached, hcached, h⟩ := Option.bind_eq_some_iff.1 h
    obtain ⟨instant, hnow, h⟩ := Option.bind_eq_some_iff.1 h
    split_ifs at h with hfresh
    obtain ⟨d, hd, h⟩ := Option.bind_eq_some_iff.1 h
    obtain ⟨encoded, hencoded, h⟩ := Option.bind_eq_some_iff.1 h
    split_ifs at h with hsize
    obtain rfl := Option.some.inj h
    obtain rfl := not_not.1 hsame
    rw [not_or, not_not, not_not] at hfields
    obtain rfl := safeFields_eq_ok (toOption_eq_some_iff.1 hitem)
    obtain ⟨item', hobj, hbytes⟩ := objectJson_eq_some hwritten
    obtain rfl := Json.obj.inj hobj
    obtain ⟨hcached, -⟩ := (timestamp_recognizes _ _).1 (toOption_eq_some_iff.1 hcached)
    obtain ⟨hdocument, hd⟩ := (validateDocument_recognizes formatter _ _).1 (toOption_eq_some_iff.1 hd)
    rw [hdocument, publicDocumentJson_spell] at hencoded
    refine ⟨_, cached, d, instant, hnow, ?_, hfields.1, hfresh, hd, (Option.some.inj hencoded).symm⟩
    rw [hraw, hbytes, entryBytes, envelope]
    simp only [envelopeFields, List.map_cons, List.map_nil, hcached, hdocument, isText_iff.1 hfields.2]
  · rintro ⟨schema, cached, d, instant, rfl, rfl, hschema, hfresh, hd, rfl⟩
    obtain ⟨-, -, -, hsize⟩ := exists_candidate hd.texts
    obtain ⟨text, htext, hparse⟩ := @parse_envelope floats schema fingerprint cached d hfloats hschema hd.hasShortCounts
    have hvalue : value "schema" [(Text.ofString "schema", schema), (Text.ofString "cached_at", .str (Text.ofString cached.text)),
        (Text.ofString "fingerprint", .str (Text.ofString fingerprint.text)), (Text.ofString "document", d.json.spell)] = schema := rfl
    unfold load
    refine Option.bind_eq_some_iff.2 ⟨entryBytes schema fingerprint cached d, rfl, ?_⟩
    rw [if_neg (not_lt.2 (length_entryBytes_le hschema hsize))]
    refine Option.bind_eq_some_iff.2 ⟨text, htext, Option.bind_eq_some_iff.2 ⟨_, hparse, ?_⟩⟩
    refine Option.bind_eq_some_iff.2 ⟨_, cacheEnvelopeJson_envelope hschema, ?_⟩
    rw [if_neg (not_not.2 rfl)]
    refine Option.bind_eq_some_iff.2 ⟨_, toOption_eq_some_iff.2 safeFields_envelope, ?_⟩
    refine (if_neg (not_or.2 ⟨not_not.2 hschema, not_not.2 (isText_iff.2 rfl)⟩)).trans ?_
    refine Option.bind_eq_some_iff.2 ⟨cached, toOption_eq_some_iff.2 ((timestamp_recognizes _ _).2 ⟨rfl, trivial⟩), ?_⟩
    refine Option.bind_eq_some_iff.2 ⟨instant, rfl, ?_⟩
    rw [if_neg (not_not.2 hfresh)]
    refine Option.bind_eq_some_iff.2 ⟨d, toOption_eq_some_iff.2 ((validateDocument_recognizes formatter _ _).2 ⟨rfl, hd⟩), ?_⟩
    refine Option.bind_eq_some_iff.2 ⟨documentBytes d, publicDocumentJson_spell d, ?_⟩
    exact if_neg (not_lt.2 ((length_documentBytes d).le.trans hsize))

/-- **What may be published**: the bytes of a document that the cache takes, without an error and
without a provider that the next attempt may run. -/
theorem publishable_eq_some_iff {x : Json Text} : publishable formatter floats b = some x ↔
    ∃ d, b = documentBytes d ∧ x = d.json.spell ∧ Cacheable formatter d ∧ d.executionError = none ∧
      d.providers.any isTransient = false := by
  constructor
  · intro h
    unfold publishable at h
    split_ifs at h with hlong hends
    · obtain ⟨text, -, h⟩ := Option.bind_eq_some_iff.1 h
      obtain ⟨y, -, h⟩ := Option.bind_eq_some_iff.1 h
      cases h
    obtain ⟨text, -, h⟩ := Option.bind_eq_some_iff.1 h
    obtain ⟨y, -, h⟩ := Option.bind_eq_some_iff.1 h
    obtain ⟨d, hd, h⟩ := Option.bind_eq_some_iff.1 h
    split_ifs at h with hrefused
    obtain ⟨canonical, hcanonical, h⟩ := Option.bind_eq_some_iff.1 h
    split_ifs at h with hsame
    obtain rfl := Option.some.inj h
    obtain ⟨rfl, hcacheable⟩ := (validateDocument_recognizes formatter _ _).1 (toOption_eq_some_iff.1 hd)
    rw [publicDocumentJson_spell] at hcanonical
    obtain rfl := Option.some.inj hcanonical
    rw [not_or, not_not] at hsame
    rw [not_or, Bool.not_eq_true, Option.isSome_eq_false_iff, Option.isNone_iff_eq_none, Bool.not_eq_true] at hrefused
    exact ⟨d, hsame.1, rfl, hcacheable, hrefused⟩
  · rintro ⟨d, rfl, rfl, hd, herror, htransient⟩
    obtain ⟨-, -, -, hsize⟩ := exists_candidate hd.texts
    have hfits : ¬MAX_CACHE_DOCUMENT_BYTES < (documentBytes d).length :=
      not_lt.2 ((length_documentBytes d).le.trans hsize)
    have hparse : Json.parse (entryReader floats) (Text.ofChars d.encode) = some d.json.spell := by
      rw [← write_document]
      exact Json.parse_write Json.Style.sound_compact (plain_document hd.hasShortCounts) (Or.inr rfl)
    have hends : (documentBytes d).getLast? = some 0x0A := by
      rw [documentBytes, Document.encode, Text.ofChars_append, Encoding.utf8Bytes_append]
      exact List.getLast?_concat
    have hrefused : ¬(d.executionError.isSome = true ∨ d.providers.any isTransient = true) := by
      rw [herror, htransient]
      simp
    unfold publishable
    rw [if_neg hfits]
    refine Option.bind_eq_some_iff.2 ⟨_, Encoding.utf8_utf8Bytes (Encoding.spelled_ofChars _), ?_⟩
    refine Option.bind_eq_some_iff.2 ⟨_, hparse, ?_⟩
    rw [if_neg (not_not.2 hends)]
    refine Option.bind_eq_some_iff.2 ⟨d, toOption_eq_some_iff.2 ((validateDocument_recognizes formatter _ _).2 ⟨rfl, hd⟩), ?_⟩
    rw [if_neg hrefused]
    refine Option.bind_eq_some_iff.2 ⟨documentBytes d, publicDocumentJson_spell d, ?_⟩
    exact if_neg (not_or.2 ⟨not_not.2 rfl, hfits⟩)

/-- **What is written** of a document that may be published is an entry of it. -/
theorem publish_eq_some_iff {instant : Instant} {d : Document} {written : Bytes} (hd : Cacheable formatter d)
    (h : publishable formatter floats b = some d.json.spell) :
    publish formatter floats fingerprint (some instant) b = some written ↔
      written = entryBytes (.int CACHE_SCHEMA) fingerprint instant d := by
  obtain ⟨-, -, -, hsize⟩ := exists_candidate hd.texts
  have hschema : isSchema (.int CACHE_SCHEMA) = true := rfl
  have hpublish : publish formatter floats fingerprint (some instant) b =
      some (entryBytes (.int CACHE_SCHEMA) fingerprint instant d) := by
    refine Option.bind_eq_some_iff.2 ⟨_, h, Option.bind_eq_some_iff.2 ⟨instant, rfl, ?_⟩⟩
    refine Option.bind_eq_some_iff.2 ⟨_, cacheEnvelopeJson_envelope hschema, ?_⟩
    exact if_neg (not_lt.2 (length_entryBytes_le hschema hsize))
  rw [hpublish, Option.some_inj]
  exact eq_comm

end Load

end Cache

end YasbLimitora
