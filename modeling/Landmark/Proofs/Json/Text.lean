/-
Texts are read as the values they hold.

`tokens` is what a value is spelled with, blanks apart. A value is `Plain` if its numbers are natural and its strings have a
text; only of such values can the text as it is written say everything.
- `scan_of_isText`: the scanner cuts any text of a value into its tokens.
- `Plain.isText_pretty`: a plain value is written as the grammar has it.
- `ofTokens?_tokens`: the tokens of any value make that value.
- `parse?_of_isText`: so a text is read as the value it holds.
-/
import Landmark.Json.Parse
import Landmark.Proofs.Json.Literal

namespace Landmark

namespace Json

/-- induction on a value that gives what is asked for of every item and of the value of every member -/
@[elab_as_elim]
theorem induct {motive : Json → Prop} (null : motive .null) (bool : ∀ b, motive (.bool b))
    (number : ∀ n, motive (.number n)) (string : ∀ t, motive (.string t))
    (array : ∀ vs, (∀ v ∈ vs, motive v) → motive (.array vs))
    (object : ∀ ms, (∀ m ∈ ms, motive m.2) → motive (.object ms)) (v : Json) : motive v :=
  @Json.rec motive (fun vs => ∀ v ∈ vs, motive v) (fun ms => ∀ m ∈ ms, motive m.2) (fun m => motive m.2)
    null bool number string array object
    (fun _ h => nomatch h) (fun _ _ hv hvs => List.forall_mem_cons.2 ⟨hv, hvs⟩)
    (fun _ h => nomatch h) (fun _ _ hm hms => List.forall_mem_cons.2 ⟨hm, hms⟩) (fun _ _ hv => hv) v

mutual

/-- tokens of a value -/
def tokens : Json → List Token
  | null => [.null]
  | bool b => [.bool b]
  | number n => [.number n]
  | string t => [.string t]
  | array [] => [.beginArray, .endArray]
  | array (v :: vs) => .beginArray :: (v.tokens ++ itemTokens vs ++ [.endArray])
  | object [] => [.beginObject, .endObject]
  | object ((k, v) :: ms) => .beginObject :: .string k :: .colon :: (v.tokens ++ memberTokens ms ++ [.endObject])

/-- tokens of further items -/
def itemTokens : List Json → List Token
  | [] => []
  | v :: vs => .comma :: (v.tokens ++ itemTokens vs)

/-- tokens of further members -/
def memberTokens : List (Option String × Json) → List Token
  | [] => []
  | (k, v) :: ms => .comma :: .string k :: .colon :: (v.tokens ++ memberTokens ms)

end

/-- the value holds natural numbers and strings with a text only -/
inductive Plain : Json → Prop
  | null : Plain .null
  | bool (b : Bool) : Plain (.bool b)
  | nat (n : Nat) : Plain (.ofNat n)
  | text (s : String) : Plain (.ofString s)
  | array {vs : List Json} (items : ∀ v ∈ vs, Plain v) : Plain (.array vs)
  | object {ms : List (Option String × Json)} (keys : ∀ m ∈ ms, ∃ s, m.1 = some s) (values : ∀ m ∈ ms, Plain m.2) :
    Plain (.object ms)

theorem Plain.ofMembers {ms : List (String × Json)} (h : ∀ m ∈ ms, Plain m.2) : Plain (.ofMembers ms) := by
  refine .object ?_ ?_
  · intro m hm
    obtain ⟨e, -, rfl⟩ := List.mem_map.1 hm
    exact ⟨e.1, rfl⟩
  · intro m hm
    obtain ⟨e, he, rfl⟩ := List.mem_map.1 hm
    exact h e he

/-! ## Scanning -/

section Scanning

open Token (scanFrom Stops)

variable {done : List Token} {rest w : List Char}

theorem stops_cons {c : Char} (h : Token.Mode.isNumberChar c = false ∧ c.isLower = false) : Stops (c :: rest) := by
  rintro _ ⟨⟩
  exact h

theorem stops_blank (hw : Blank w) (h : Stops rest) : Stops (w ++ rest) := by
  cases w with
  | nil => exact h
  | cons c w =>
    refine stops_cons ?_
    rcases hw c List.mem_cons_self with rfl | rfl | rfl | rfl <;> decide

theorem scanFrom_blank (hw : Blank w) : scanFrom done .between (w ++ rest) = scanFrom done .between rest := by
  induction w with
  | nil => rfl
  | cons c w ih =>
    obtain ⟨hc, hrest⟩ := List.forall_mem_cons.1 hw
    rcases hc with rfl | rfl | rfl | rfl <;> exact ih hrest

theorem scanFrom_beginArray : scanFrom done .between ('[' :: rest) = scanFrom (.beginArray :: done) .between rest := rfl

theorem scanFrom_endArray : scanFrom done .between (']' :: rest) = scanFrom (.endArray :: done) .between rest := rfl

theorem scanFrom_beginObject : scanFrom done .between ('\x7b' :: rest) = scanFrom (.beginObject :: done) .between rest := rfl

theorem scanFrom_endObject : scanFrom done .between ('\x7d' :: rest) = scanFrom (.endObject :: done) .between rest := rfl

theorem scanFrom_colon : scanFrom done .between (':' :: rest) = scanFrom (.colon :: done) .between rest := rfl

theorem scanFrom_comma : scanFrom done .between (',' :: rest) = scanFrom (.comma :: done) .between rest := rfl

theorem tokens_array {vs : List Json} {cs : List Char} (h : Items vs cs) :
    (array vs).tokens = .beginArray :: ((itemTokens vs).tail ++ [.endArray]) := by
  cases h <;> rfl

theorem tokens_object {ms : List (Option String × Json)} {cs : List Char} (h : Members ms cs) :
    (object ms).tokens = .beginObject :: ((memberTokens ms).tail ++ [.endObject]) := by
  cases h <;> rfl

theorem itemTokens_cons {vs : List Json} {cs : List Char} (h : Items vs cs) :
    itemTokens vs = .comma :: (itemTokens vs).tail := by
  cases h <;> rfl

theorem memberTokens_cons {ms : List (Option String × Json)} {cs : List Char} (h : Members ms cs) :
    memberTokens ms = .comma :: (memberTokens ms).tail := by
  cases h <;> rfl

-- by recursion over the derivation; what follows is left open, since a value ends where its container goes on
mutual

/-- **What spells a value is cut into the tokens of the value**, where nothing goes on with it. -/
theorem Spelled.scan {v : Json} {cs : List Char} (h : Spelled v cs) (done : List Token) {rest : List Char}
    (hrest : Stops rest) : scanFrom done .between (cs ++ rest) = scanFrom (v.tokens.reverse ++ done) .between rest := by
  cases h with
  | null => exact Token.scanFrom_word_of_stops hrest rfl
  | yes => exact Token.scanFrom_word_of_stops hrest rfl
  | no => exact Token.scanFrom_word_of_stops hrest rfl
  | number h => exact Token.scanFrom_number h hrest
  | string h => exact Token.scanFrom_literal h rest
  | emptyArray hw =>
    rw [List.cons_append, List.append_assoc, List.singleton_append, scanFrom_beginArray, scanFrom_blank hw,
      scanFrom_endArray]
    rfl
  | array h =>
    rw [List.cons_append, List.append_assoc, List.singleton_append, scanFrom_beginArray, h.scan _ (stops_cons (by decide)),
      scanFrom_endArray, tokens_array h]
    simp
  | emptyObject hw =>
    rw [List.cons_append, List.append_assoc, List.singleton_append, scanFrom_beginObject, scanFrom_blank hw,
      scanFrom_endObject]
    rfl
  | object h =>
    rw [List.cons_append, List.append_assoc, List.singleton_append, scanFrom_beginObject, h.scan _ (stops_cons (by decide)),
      scanFrom_endObject, tokens_object h]
    simp

theorem Items.scan {vs : List Json} {cs : List Char} (h : Items vs cs) (done : List Token) {rest : List Char}
    (hrest : Stops rest) :
    scanFrom done .between (cs ++ rest) = scanFrom ((itemTokens vs).tail.reverse ++ done) .between rest := by
  cases h with
  | last hw hv hw' =>
    simp only [List.append_assoc]
    rw [scanFrom_blank hw, hv.scan _ (stops_blank hw' hrest), scanFrom_blank hw']
    simp [itemTokens]
  | more hw hv hw' hvs =>
    simp only [List.append_assoc, List.cons_append]
    rw [scanFrom_blank hw, hv.scan _ (stops_blank hw' (stops_cons (by decide))), scanFrom_blank hw', scanFrom_comma,
      hvs.scan _ hrest, itemTokens, List.tail_cons, itemTokens_cons hvs]
    simp

theorem Members.scan {ms : List (Option String × Json)} {cs : List Char} (h : Members ms cs) (done : List Token)
    {rest : List Char} (hrest : Stops rest) :
    scanFrom done .between (cs ++ rest) = scanFrom ((memberTokens ms).tail.reverse ++ done) .between rest := by
  cases h with
  | last hw hk hw' hu hv hu' =>
    simp only [List.append_assoc, List.cons_append]
    rw [scanFrom_blank hw, Token.scanFrom_literal hk, scanFrom_blank hw', scanFrom_colon, scanFrom_blank hu,
      hv.scan _ (stops_blank hu' hrest), scanFrom_blank hu']
    simp [memberTokens]
  | more hw hk hw' hu hv hu' hms =>
    simp only [List.append_assoc, List.cons_append]
    rw [scanFrom_blank hw, Token.scanFrom_literal hk, scanFrom_blank hw', scanFrom_colon, scanFrom_blank hu,
      hv.scan _ (stops_blank hu' (stops_cons (by decide))), scanFrom_blank hu', scanFrom_comma, hms.scan _ hrest,
      memberTokens, List.tail_cons, memberTokens_cons hms]
    simp

end

/-- **A text that holds a value is cut into the tokens of the value.** -/
theorem scan_of_isText {v : Json} {text : String} (h : v.IsText text) : Token.scan text.toList = some v.tokens := by
  obtain ⟨w, cs, w', hw, hv, hw', htext⟩ := h
  have hstops : Stops (w' ++ []) := stops_blank hw' fun _ hc => nomatch hc
  have hend : ∀ done, scanFrom done .between (w' ++ []) = some done := fun done => scanFrom_blank hw'
  have hall : scanFrom [] .between (w ++ (cs ++ (w' ++ []))) = some v.tokens.reverse := by
    rw [scanFrom_blank hw, hv.scan [] hstops, hend, List.append_nil]
  rw [List.append_nil] at hall
  rw [Token.scan, htext, hall, Option.map_some, List.reverse_reverse]

end Scanning

/-! ## Texts as they are written -/

section Writing

variable {layout : Layout} {depth : Nat}

theorem blank_nil : Blank [] := fun _ hc => nomatch hc

theorem blank_lineBreak : Blank (layout.lineBreak depth) := by
  cases layout with
  | compact => exact blank_nil
  | pretty =>
    refine List.forall_mem_cons.2 ⟨.inr (.inr (.inl rfl)), ?_⟩
    intro c hc
    exact .inl (List.eq_of_mem_replicate hc)

theorem colon_eq : ∃ w, layout.colon = ':' :: w ∧ Blank w := by
  cases layout with
  | compact => exact ⟨[], rfl, blank_nil⟩
  | pretty => exact ⟨[' '], rfl, by simp [Blank]⟩

theorem items_written {v : Json} {vs : List Json} (h : ∀ u ∈ v :: vs, Spelled u (u.write layout depth)) {w : List Char}
    (hw : Blank w) :
    Items (v :: vs) (layout.lineBreak depth ++ (v.write layout depth ++ (writeItems layout depth vs ++ w))) := by
  induction vs generalizing v with
  | nil => exact .last blank_lineBreak (h v List.mem_cons_self) hw
  | cons u vs ih =>
    obtain ⟨hv, hrest⟩ := List.forall_mem_cons.1 h
    have hmore := Items.more (@blank_lineBreak layout depth) hv blank_nil (ih hrest)
    simpa [writeItems] using hmore

theorem members_written {m : Option String × Json} {ms : List (Option String × Json)}
    (hkeys : ∀ n ∈ m :: ms, ∃ s, n.1 = some s) (h : ∀ n ∈ m :: ms, Spelled n.2 (n.2.write layout depth)) {w : List Char}
    (hw : Blank w) :
    Members (m :: ms) (layout.lineBreak depth ++ (quoteAny m.1 ++ (layout.colon ++ (m.2.write layout depth ++
      (writeMembers layout depth ms ++ w))))) := by
  obtain ⟨u, hcolon, hu⟩ := @colon_eq layout
  induction ms generalizing m with
  | nil =>
    obtain ⟨k, v⟩ := m
    obtain ⟨s, rfl⟩ : ∃ s, k = some s := hkeys (k, v) List.mem_cons_self
    have hlast := Members.last (@blank_lineBreak layout depth) (Token.literal_quote s) blank_nil hu
      (h (some s, v) List.mem_cons_self) hw
    simpa [writeMembers, quoteAny, hcolon] using hlast
  | cons n ms ih =>
    obtain ⟨k, v⟩ := m
    obtain ⟨s, rfl⟩ : ∃ s, k = some s := hkeys (k, v) List.mem_cons_self
    obtain ⟨hv, hrest⟩ := List.forall_mem_cons.1 h
    have hmore := Members.more (@blank_lineBreak layout depth) (Token.literal_quote s) blank_nil hu hv blank_nil
      (ih (fun n hn => hkeys n (List.mem_cons_of_mem _ hn)) hrest)
    simpa [writeMembers, quoteAny, hcolon] using hmore

/-- **A plain value is written as the grammar has it**, in either layout. -/
theorem Plain.spelled {v : Json} (hv : v.Plain) (layout : Layout) (depth : Nat) : v.Spelled (v.write layout depth) := by
  induction hv generalizing depth with
  | null => exact .null
  | bool b =>
    cases b with
    | false => exact .no
    | true => exact .yes
  | nat n =>
    have htext : numberText (.ofNat n) = Nat.toDigits 10 n := by simp [numberText, Number.ofNat]
    rw [ofNat, write, htext]
    exact .number (Number.spelled_toDigits n)
  | text s => exact .string (Token.literal_quote s)
  | @array vs items ih =>
    cases vs with
    | nil => exact .emptyArray blank_nil
    | cons v vs =>
      have hitems := items_written (fun u hu => ih u hu (depth + 1)) (@blank_lineBreak layout depth)
      simpa [write] using Spelled.array hitems
  | @object ms keys values ih =>
    cases ms with
    | nil => exact .emptyObject blank_nil
    | cons m ms =>
      have hmembers := members_written keys (fun n hn => ih n hn (depth + 1)) (@blank_lineBreak layout depth)
      simpa [write] using Spelled.object hmembers

theorem Plain.isText_pretty {v : Json} (hv : v.Plain) : v.IsText v.pretty :=
  ⟨[], v.write .pretty 0, [], blank_nil, hv.spelled .pretty 0, blank_nil, by simp [pretty]⟩

end Writing

/-! ## Parsing -/

section Parsing

open Reading (feedAll complete)

theorem feedAll_cons (r : Reading) (t : Token) (ts : List Token) :
    r.feedAll (t :: ts) = (r.feed t).bind fun r => r.feedAll ts := by
  rw [feedAll]
  cases r.feed t <;> rfl

/-- the tokens of the value complete it, whatever is open around it -/
def Parses (v : Json) : Prop :=
  ∀ (fs : List Frame) (ts : List Token),
    feedAll (.open .value fs) (v.tokens ++ ts) = (complete v fs).bind fun r => r.feedAll ts

/-- no value starts with the end of an array -/
theorem feedAll_firstItem (v : Json) (fs : List Frame) (ts : List Token) :
    feedAll (.open .firstItem fs) (v.tokens ++ ts) = feedAll (.open .value fs) (v.tokens ++ ts) := by
  cases v with
  | array vs => cases vs <;> simp [tokens, feedAll, Reading.feed]
  | object ms => cases ms <;> simp [tokens, feedAll, Reading.feed]
  | _ => simp [tokens, feedAll, Reading.feed]

theorem feedAll_itemTokens {vs : List Json} (h : ∀ v ∈ vs, v.Parses) (acc : List Json) (fs : List Frame)
    (ts : List Token) : feedAll (.open .separator (.array acc :: fs)) (itemTokens vs ++ ts) =
      feedAll (.open .separator (.array (vs.reverse ++ acc) :: fs)) ts := by
  induction vs generalizing acc with
  | nil => rfl
  | cons v vs ih =>
    have hcomma : ∀ us, feedAll (.open .separator (.array acc :: fs)) (.comma :: us) =
        feedAll (.open .value (.array acc :: fs)) us := fun _ => rfl
    rw [itemTokens, List.cons_append, List.append_assoc, hcomma, h v List.mem_cons_self, complete, Option.bind_some,
      ih fun u hu => h u (List.mem_cons_of_mem v hu)]
    simp

theorem feedAll_memberTokens {ms : List (Option String × Json)} (h : ∀ m ∈ ms, m.2.Parses)
    (acc : List (Option String × Json)) (fs : List Frame) (ts : List Token) :
    feedAll (.open .separator (.object acc :: fs)) (memberTokens ms ++ ts) =
      feedAll (.open .separator (.object (ms.reverse ++ acc) :: fs)) ts := by
  induction ms generalizing acc with
  | nil => rfl
  | cons m ms ih =>
    obtain ⟨k, v⟩ := m
    have hkey : ∀ us, feedAll (.open .separator (.object acc :: fs)) (.comma :: .string k :: .colon :: us) =
        feedAll (.open .value (.member acc k :: fs)) us := fun _ => rfl
    simp only [memberTokens, List.cons_append, List.append_assoc]
    rw [hkey, h (k, v) List.mem_cons_self, complete, Option.bind_some, ih fun m hm => h m (List.mem_cons_of_mem _ hm)]
    simp

theorem parses_array {vs : List Json} (h : ∀ v ∈ vs, v.Parses) : (array vs).Parses := by
  intro fs ts
  cases vs with
  | nil =>
    rw [tokens, List.cons_append, List.singleton_append, feedAll_cons]
    exact feedAll_cons _ _ _
  | cons v vs =>
    have hopen : ∀ us, feedAll (.open .value fs) (.beginArray :: us) = feedAll (.open .firstItem (.array [] :: fs)) us :=
      fun _ => rfl
    simp only [tokens, List.cons_append, List.append_assoc, List.nil_append]
    rw [hopen, feedAll_firstItem, h v List.mem_cons_self, complete, Option.bind_some,
      feedAll_itemTokens (fun u hu => h u (List.mem_cons_of_mem v hu)), feedAll_cons]
    simp [Reading.feed, Reading.close]

theorem parses_object {ms : List (Option String × Json)} (h : ∀ m ∈ ms, m.2.Parses) : (object ms).Parses := by
  intro fs ts
  cases ms with
  | nil =>
    rw [tokens, List.cons_append, List.singleton_append, feedAll_cons]
    exact feedAll_cons _ _ _
  | cons m ms =>
    obtain ⟨k, v⟩ := m
    have hopen : ∀ us, feedAll (.open .value fs) (.beginObject :: .string k :: .colon :: us) =
        feedAll (.open .value (.member [] k :: fs)) us := fun _ => rfl
    simp only [tokens, List.cons_append, List.append_assoc, List.nil_append]
    rw [hopen, h (k, v) List.mem_cons_self, complete, Option.bind_some,
      feedAll_memberTokens (fun m hm => h m (List.mem_cons_of_mem _ hm)), feedAll_cons]
    simp [Reading.feed, Reading.close]

/-- from a token that is a value, that value -/
theorem parses_scalar {v : Json} {t : Token} (htokens : v.tokens = [t])
    (ht : ∀ fs, Reading.begin fs t = complete v fs) : v.Parses := by
  intro fs ts
  rw [htokens, List.singleton_append, feedAll_cons, Reading.feed, ht]

theorem parses (v : Json) : v.Parses := by
  induction v using induct with
  | null => exact parses_scalar rfl fun _ => rfl
  | bool b => exact parses_scalar rfl fun _ => rfl
  | number n => exact parses_scalar rfl fun _ => rfl
  | string t => exact parses_scalar rfl fun _ => rfl
  | array vs ih => exact parses_array ih
  | object ms ih => exact parses_object ih

/-- **The tokens of a value make that value.** -/
theorem ofTokens?_tokens (v : Json) : ofTokens? v.tokens = some v := by
  have hall := v.parses [] []
  rw [List.append_nil, complete, Option.bind_some, feedAll] at hall
  rw [ofTokens?, hall]

end Parsing

/-- **A text is read as the value it holds**, in whatever way it spells it. -/
theorem parse?_of_isText {v : Json} {text : String} (h : v.IsText text) : parse? text = some v := by
  rw [parse?, scan_of_isText h, Option.bind_some, ofTokens?_tokens]

end Json

end Landmark
