/-
  HTML that is put together from templates.

  The reader is the part of the tokenizer that templates need: tags whose attributes
  have values in double quotes, text, and the five character references that
  `escapeHtml` writes.  At anything else it stops.  Characters that a browser replaces
  before it reads (carriage returns, NUL) are kept.

  * `read_print`: a template is read as its parts say: an escaped value is text, or
    part of the value of an attribute, and the same text as before;
  * `tags_eq_of_skeleton_eq`: templates that differ in their values have the same tags;
  * `shown_of_mem`: every value is found in a text or in the value of an attribute.
-/
import Mathlib.Data.List.Basic

namespace DnsBlackhole.Lib.Html

abbrev Attribute := List Char × List Char

inductive Token
  | char (c : Char)
  | startTag (name : List Char) (attributes : List Attribute)
  | endTag (name : List Char)
  deriving DecidableEq

/-! ## The reader -/

inductive Mode
  | data
  | tagOpen
  | tagName
  | endTagOpen
  | endTagName
  | beforeAttributeName
  | attributeName
  | beforeAttributeValue
  /-- In double quotes. -/
  | attributeValue
  | afterAttributeValue
  deriving DecidableEq

/-- What the reader keeps: the tag that it is in, and the character reference. -/
structure Reader where
  mode : Mode := .data
  name : List Char := []
  attributes : List Attribute := []
  key : List Char := []
  value : List Char := []
  reference : Option (List Char) := none
  deriving DecidableEq

/-- The character references that are known. -/
def decode (entity : List Char) : Option Char :=
  if entity = "amp".toList then some '&'
  else if entity = "quot".toList then some '"'
  else if entity = "#39".toList then some '\''
  else if entity = "lt".toList then some '<'
  else if entity = "gt".toList then some '>'
  else none

def isSpace (c : Char) : Bool := c = ' ' || c = '\n'

/-- The characters of the names of tags and attributes. -/
def isNameChar (c : Char) : Bool := c.isAlphanum || c = '-'

namespace Reader
variable (r : Reader)

/-- Text, where text can stand. -/
def text (cs : List Char) : Option (Reader × List Token) :=
  if r.reference = none then
    match r.mode with
    | .data => some (r, cs.map .char)
    | .attributeValue => some ({ r with value := r.value ++ cs }, [])
    | _ => none
  else none

/-- A character outside of references. -/
def outside (c : Char) : Option (Reader × List Token) :=
  match r.mode with
  | .data =>
    if c = '<' then some ({ mode := .tagOpen }, [])
    else if c = '&' then some ({ r with reference := some [] }, [])
    else some (r, [.char c])
  | .tagOpen =>
    if c = '/' then some ({ mode := .endTagOpen }, [])
    else if c.isAlpha then some ({ mode := .tagName, name := [c] }, [])
    else none
  | .tagName =>
    if isSpace c then some ({ r with mode := .beforeAttributeName }, [])
    else if c = '>' then some ({}, [.startTag r.name r.attributes])
    else if isNameChar c then some ({ r with name := r.name ++ [c] }, [])
    else none
  | .endTagOpen => if c.isAlpha then some ({ mode := .endTagName, name := [c] }, []) else none
  | .endTagName =>
    if c = '>' then some ({}, [.endTag r.name])
    else if isNameChar c then some ({ r with name := r.name ++ [c] }, [])
    else none
  | .beforeAttributeName =>
    if isNameChar c then some ({ r with mode := .attributeName, key := [c] }, [])
    else none
  | .attributeName =>
    if c = '=' then some ({ r with mode := .beforeAttributeValue }, [])
    else if isNameChar c then some ({ r with key := r.key ++ [c] }, [])
    else none
  | .beforeAttributeValue =>
    if c = '"' then some ({ r with mode := .attributeValue, value := [] }, []) else none
  | .attributeValue =>
    if c = '"' then
      some ({ r with
        mode := .afterAttributeValue, attributes := r.attributes ++ [(r.key, r.value)] }, [])
    else if c = '&' then some ({ r with reference := some [] }, [])
    else some ({ r with value := r.value ++ [c] }, [])
  | .afterAttributeValue =>
    if isSpace c then some ({ r with mode := .beforeAttributeName }, [])
    else if c = '>' then some ({}, [.startTag r.name r.attributes])
    else none

def step (c : Char) : Option (Reader × List Token) :=
  match r.reference with
  | none => r.outside c
  | some entity =>
    if c = ';' then (decode entity).bind fun d => { r with reference := none }.text [d]
    else some ({ r with reference := some (entity ++ [c]) }, [])

/-- The tokens of a text, and what the reader keeps behind it. -/
def run (r : Reader) : List Char → Option (Reader × List Token)
  | [] => some (r, [])
  | c :: cs => (r.step c).bind fun first =>
    (run first.1 cs).map fun rest => (rest.1, first.2 ++ rest.2)

end Reader

/-- The tokens of a text that ends outside of tags. -/
def read (text : List Char) : Option (List Token) :=
  (Reader.run {} text).bind fun result =>
    if result.1.mode = .data ∧ result.1.reference = none then some result.2 else none

/-! ## Templates -/

/-- `escapeHtml`: one replacement after the other. -/
def escapeHtml (value : List Char) : List Char :=
  let replace (c : Char) (entity : String) (text : List Char) : List Char :=
    text.flatMap fun d => if d = c then entity.toList else [d]
  replace '>' "&gt;" (replace '<' "&lt;" (replace '\'' "&#39;" (replace '"' "&quot;"
    (replace '&' "&amp;" value))))

/-- A part of a template literal: what is written in it, a text that is put in as it is, or
    one that is escaped. -/
inductive Part
  | markup (text : List Char)
  | plain (text : List Char)
  | value (text : List Char)

namespace Part

def print : Part → List Char
  | markup text => text
  | plain text => text
  | value text => escapeHtml text

/-- What is left of a part when the texts that are put in are left out. -/
def skeleton : Part → Part
  | markup text => markup text
  | plain _ => plain []
  | value _ => value []

end Part

def print (template : List Part) : List Char := template.flatMap Part.print

/-- The text has no character that HTML or a quoted value takes for more than text. -/
def Plain (text : List Char) : Prop := ∀ c ∈ text, c ≠ '<' ∧ c ≠ '&' ∧ c ≠ '"'

instance (text : List Char) : Decidable (Plain text) :=
  List.decidableBAll (fun c => c ≠ '<' ∧ c ≠ '&' ∧ c ≠ '"') text

/-- What is put in is text, or part of the value of an attribute, and nothing else. -/
def readPart (r : Reader) : Part → Option (Reader × List Token)
  | .markup text => r.run text
  | .plain text => if Plain text then r.text text else none
  | .value text => r.text text

/-- A template is read part by part. -/
def readTemplate (r : Reader) : List Part → Option (Reader × List Token)
  | [] => some (r, [])
  | part :: template => (readPart r part).bind fun first =>
    (readTemplate first.1 template).map fun rest => (rest.1, first.2 ++ rest.2)

/-! ## Values are read as they were -/

/-- What one character is escaped to. -/
def escapeChar (c : Char) : List Char :=
  if c = '&' then "&amp;".toList
  else if c = '"' then "&quot;".toList
  else if c = '\'' then "&#39;".toList
  else if c = '<' then "&lt;".toList
  else if c = '>' then "&gt;".toList
  else [c]

theorem escapeHtml_eq (value : List Char) : escapeHtml value = value.flatMap escapeChar := by
  unfold escapeHtml
  simp only [List.flatMap_assoc]
  refine List.flatMap_congr fun c _ => ?_
  unfold escapeChar
  by_cases hamp : c = '&'
  · subst hamp
    rfl
  by_cases hquote : c = '"'
  · subst hquote
    rfl
  by_cases happ : c = '\''
  · subst happ
    rfl
  by_cases hlt : c = '<'
  · subst hlt
    rfl
  simp only [hamp, hquote, happ, hlt, if_false, List.flatMap_cons, List.flatMap_nil,
    List.append_nil]

namespace Reader
variable {r : Reader}

theorem run_nil (r : Reader) : r.run [] = some (r, []) := rfl

theorem run_cons (r : Reader) (c : Char) (cs : List Char) :
    r.run (c :: cs) = (r.step c).bind fun first =>
      (first.1.run cs).map fun rest => (rest.1, first.2 ++ rest.2) := rfl

theorem run_append (r : Reader) (as bs : List Char) :
    r.run (as ++ bs) = (r.run as).bind fun first =>
      (first.1.run bs).map fun rest => (rest.1, first.2 ++ rest.2) := by
  induction as generalizing r with
  | nil => simp [run_nil]
  | cons c as ih =>
    rw [List.cons_append, run_cons, run_cons]
    cases r.step c with
    | none => rfl
    | some first =>
      simp only [Option.bind_some, ih]
      cases run first.1 as with
      | none => rfl
      | some second =>
        simp only [Option.bind_some, Option.map_some, Option.map_map]
        exact congrArg (Option.map · _) (funext fun rest => by simp)

/-- Text can stand here. -/
def TakesText (r : Reader) : Prop :=
  r.reference = none ∧ (r.mode = .data ∨ r.mode = .attributeValue)

instance : Decidable r.TakesText := inferInstanceAs (Decidable (_ ∧ _))

theorem takesText_of_text {cs : List Char} {result : Reader × List Token}
    (h : r.text cs = some result) : r.TakesText ∧ result.1.TakesText := by
  obtain ⟨mode, name, attributes, key, value, reference⟩ := r
  unfold text at h
  split_ifs at h with hreference
  cases hreference
  cases mode <;> cases h
  · exact ⟨⟨rfl, .inl rfl⟩, rfl, .inl rfl⟩
  · exact ⟨⟨rfl, .inr rfl⟩, rfl, .inr rfl⟩

theorem text_cons (h : r.TakesText) (c : Char) (cs : List Char) :
    r.text (c :: cs) = (r.text [c]).bind fun first =>
      (first.1.text cs).map fun rest => (rest.1, first.2 ++ rest.2) := by
  obtain ⟨mode, name, attributes, key, value, reference⟩ := r
  obtain ⟨hreference, hmode⟩ := h
  cases hreference
  rcases hmode with hmode | hmode
  · cases hmode
    rfl
  · cases hmode
    simp [text]

theorem text_nil (h : r.TakesText) : r.text [] = some (r, []) := by
  obtain ⟨mode, name, attributes, key, value, reference⟩ := r
  obtain ⟨hreference, hmode⟩ := h
  cases hreference
  rcases hmode with hmode | hmode
  · cases hmode
    rfl
  · cases hmode
    simp [text]

theorem run_singleton (c : Char) : r.run [c] = r.step c := by
  rw [run_cons]
  cases r.step c with
  | none => rfl
  | some first => simp [run_nil]

theorem step_of_plain (h : r.TakesText) {c : Char} (hc : c ≠ '<' ∧ c ≠ '&' ∧ c ≠ '"') :
    r.step c = r.text [c] := by
  obtain ⟨mode, name, attributes, key, value, reference⟩ := r
  obtain ⟨hreference, hmode⟩ := h
  cases hreference
  rcases hmode with hmode | hmode
  · cases hmode
    simp [step, outside, text, hc]
  · cases hmode
    simp [step, outside, text, hc]

theorem run_escapeChar (h : r.TakesText) (c : Char) : r.run (escapeChar c) = r.text [c] := by
  by_cases hspecial : c ∈ ['&', '"', '\'', '<', '>']
  · obtain ⟨mode, name, attributes, key, value, reference⟩ := r
    obtain ⟨hreference, hmode⟩ := h
    cases hreference
    rcases hmode with hmode | hmode
    all_goals
      cases hmode
      simp only [List.mem_cons, List.not_mem_nil, or_false] at hspecial
      rcases hspecial with rfl | rfl | rfl | rfl | rfl <;> rfl
  · simp only [List.mem_cons, List.not_mem_nil, or_false, not_or] at hspecial
    obtain ⟨hamp, hquote, happ, hlt, hgt⟩ := hspecial
    rw [escapeChar, if_neg hamp, if_neg hquote, if_neg happ, if_neg hlt, if_neg hgt,
      run_singleton]
    exact step_of_plain h ⟨hlt, hamp, hquote⟩

/-- What is read as text character by character is read as text. -/
theorem run_flatMap {f : Char → List Char} {cs : List Char}
    (hf : ∀ c ∈ cs, ∀ s : Reader, s.TakesText → s.run (f c) = s.text [c]) (h : r.TakesText) :
    r.run (cs.flatMap f) = r.text cs := by
  induction cs generalizing r with
  | nil => rw [text_nil h, List.flatMap_nil, run_nil]
  | cons c cs ih =>
    rw [List.flatMap_cons, run_append, text_cons h, hf c List.mem_cons_self r h]
    cases hfirst : r.text [c] with
    | none => rfl
    | some first =>
      simp only [Option.bind_some]
      rw [ih (fun d hd => hf d (List.mem_cons_of_mem _ hd)) (takesText_of_text hfirst).2]

theorem run_escapeHtml (h : r.TakesText) (value : List Char) :
    r.run (escapeHtml value) = r.text value := by
  rw [escapeHtml_eq]
  exact run_flatMap (fun c _ s hs => run_escapeChar hs c) h

theorem run_of_plain (h : r.TakesText) {text : List Char} (ht : Plain text) :
    r.run text = r.text text := by
  have hself : r.run (text.flatMap fun c => [c]) = r.text text := run_flatMap (fun c hc s hs => by
    rw [run_singleton]
    exact step_of_plain hs (ht c hc)) h
  rwa [List.flatMap_singleton'] at hself

end Reader

/-- **Templates are read as their parts say.** -/
theorem run_print {template : List Part} {r : Reader} {result : Reader × List Token}
    (h : readTemplate r template = some result) : r.run (print template) = some result := by
  induction template generalizing r result with
  | nil => exact h
  | cons part template ih =>
    unfold readTemplate at h
    obtain ⟨first, hfirst, h⟩ := Option.bind_eq_some_iff.1 h
    obtain ⟨rest, hrest, rfl⟩ := Option.map_eq_some_iff.1 h
    have hpart : r.run part.print = some first := by
      cases part with
      | markup text => exact hfirst
      | plain text =>
        simp only [readPart] at hfirst
        split_ifs at hfirst with hplain
        rw [← hfirst]
        exact Reader.run_of_plain (Reader.takesText_of_text hfirst).1 hplain
      | value text =>
        rw [← hfirst]
        exact Reader.run_escapeHtml (Reader.takesText_of_text hfirst).1 text
    rw [print, List.flatMap_cons, Reader.run_append, hpart]
    have hih := ih hrest
    unfold print at hih
    rw [Option.bind_some, hih]
    rfl

/-! ## Tags -/

def withoutValues (attributes : List Attribute) : List Attribute :=
  attributes.map fun pair => (pair.1, [])

/-- The sequence of tags, with the names of their attributes. -/
def tags (tokens : List Token) : List Token :=
  tokens.filterMap fun
    | .char _ => none
    | .startTag name attributes => some (.startTag name (withoutValues attributes))
    | .endTag name => some (.endTag name)

theorem tags_append (as bs : List Token) : tags (as ++ bs) = tags as ++ tags bs :=
  List.filterMap_append

theorem tags_map_char (cs : List Char) : tags (cs.map .char) = [] := by
  unfold tags
  rw [List.filterMap_map]
  exact List.filterMap_eq_nil_iff.2 fun _ _ => rfl

/-- The reader without the values that it has read. -/
def Reader.skeleton (r : Reader) : Reader :=
  { r with value := [], attributes := withoutValues r.attributes }

/-- What does not depend on values. -/
def resultSkeleton (result : Reader × List Token) : Reader × List Token :=
  (result.1.skeleton, tags result.2)

namespace Reader
variable {r s : Reader}

theorem text_skeleton (h : r.skeleton = s.skeleton) (as bs : List Char) :
    (r.text as).map resultSkeleton = (s.text bs).map resultSkeleton := by
  have hself : ∀ (r : Reader) (cs : List Char), (r.text cs).map resultSkeleton =
      if r.skeleton.TakesText then some (r.skeleton, []) else none := by
    rintro ⟨mode, name, attributes, key, value, reference⟩ cs
    cases reference with
    | none =>
      cases mode <;>
        simp [text, TakesText, resultSkeleton, skeleton, withoutValues, tags_map_char]
      rfl
    | some entity => simp [text, TakesText, skeleton]
  rw [hself, hself, h]

/-- A step does not depend on the values that have been read. -/
theorem step_skeleton (r : Reader) (c : Char) :
    (r.step c).map resultSkeleton = (r.skeleton.step c).map resultSkeleton := by
  obtain ⟨mode, name, attributes, key, value, reference⟩ := r
  cases reference with
  | none =>
    cases mode <;> simp only [step, outside, skeleton] <;> split_ifs <;>
      simp [resultSkeleton, skeleton, tags, withoutValues]
  | some entity =>
    simp only [step, skeleton]
    split_ifs
    · cases decode entity with
      | none => rfl
      | some d => cases mode <;> simp [text, resultSkeleton, skeleton, tags, withoutValues]
    · simp [resultSkeleton, skeleton, tags, withoutValues]

/-- Two readings go on in the same way behind first parts that are alike. -/
theorem bind_skeleton {first second : Option (Reader × List Token)}
    {next next' : Reader → Option (Reader × List Token)}
    (h : first.map resultSkeleton = second.map resultSkeleton)
    (hnext : ∀ r s : Reader, r.skeleton = s.skeleton →
      (next r).map resultSkeleton = (next' s).map resultSkeleton) :
    (first.bind fun result =>
        (next result.1).map fun rest => (rest.1, result.2 ++ rest.2)).map resultSkeleton =
      (second.bind fun result =>
        (next' result.1).map fun rest => (rest.1, result.2 ++ rest.2)).map resultSkeleton := by
  cases first with
  | none =>
    cases second with
    | none => rfl
    | some b => cases h
  | some a =>
    cases second with
    | none => cases h
    | some b =>
      obtain ⟨hreader, htags⟩ := Prod.mk.inj (Option.some.inj h)
      have hrest := hnext a.1 b.1 hreader
      simp only [Option.bind_some, Option.map_map]
      have hsplit : ∀ (ts : List Token) (x : Option (Reader × List Token)),
          x.map (resultSkeleton ∘ fun rest => (rest.1, ts ++ rest.2)) =
            (x.map resultSkeleton).map fun rest => (rest.1, tags ts ++ rest.2) := by
        intro ts x
        rw [Option.map_map]
        exact congrArg (Option.map · x) (funext fun rest => congrArg _ (tags_append ts rest.2))
      rw [hsplit, hsplit, hrest, htags]

theorem run_skeleton (h : r.skeleton = s.skeleton) (cs : List Char) :
    (r.run cs).map resultSkeleton = (s.run cs).map resultSkeleton := by
  induction cs generalizing r s with
  | nil => exact congrArg (fun reader => some (reader, [])) h
  | cons c cs ih =>
    have hstep : (r.step c).map resultSkeleton = (s.step c).map resultSkeleton := by
      rw [step_skeleton, step_skeleton s, h]
    rw [run_cons, run_cons]
    exact bind_skeleton hstep fun first first' => ih

end Reader

/-- The text that is put in as it is, is plain. -/
def Part.IsPlain : Part → Prop
  | plain text => Plain text
  | _ => True

instance : DecidablePred Part.IsPlain
  | .markup _ => isTrue trivial
  | .plain text => inferInstanceAs (Decidable (Plain text))
  | .value _ => isTrue trivial

theorem readPart_skeleton {part part' : Part} {r s : Reader} (h : r.skeleton = s.skeleton)
    (hpart : part.skeleton = part'.skeleton) (hp : part.IsPlain) (hp' : part'.IsPlain) :
    (readPart r part).map resultSkeleton = (readPart s part').map resultSkeleton := by
  cases part <;> cases part' <;> cases hpart
  · exact Reader.run_skeleton h _
  · simp only [Part.IsPlain] at hp hp'
    simp only [readPart, if_pos hp, if_pos hp']
    exact Reader.text_skeleton h _ _
  · exact Reader.text_skeleton h _ _

/-- **Values have no tags**: templates that differ in the texts that are put in have the same
    tags, with the same attributes. -/
theorem readTemplate_skeleton {template template' : List Part} {r s : Reader}
    (h : r.skeleton = s.skeleton) (ht : template.map Part.skeleton = template'.map Part.skeleton)
    (hp : ∀ part ∈ template, part.IsPlain) (hp' : ∀ part ∈ template', part.IsPlain) :
    (readTemplate r template).map resultSkeleton =
      (readTemplate s template').map resultSkeleton := by
  induction template generalizing template' r s with
  | nil =>
    obtain rfl := List.map_eq_nil_iff.1 ht.symm
    exact congrArg (fun reader => some (reader, [])) h
  | cons part template ih =>
    obtain ⟨part', template', rfl, hpart, ht⟩ := List.map_eq_cons_iff.1 ht.symm
    obtain ⟨hfirst, hp⟩ := List.forall_mem_cons.1 hp
    obtain ⟨hfirst', hp'⟩ := List.forall_mem_cons.1 hp'
    unfold readTemplate
    exact Reader.bind_skeleton (readPart_skeleton h hpart.symm hfirst hfirst')
      fun first first' hreader => ih hreader ht.symm hp hp'

/-! ## Pieces of templates -/

/-- A template that is put in where tags can stand. -/
def Complete (template : List Part) : Prop :=
  ∀ r : Reader, r.skeleton = {} →
    ∃ result, readTemplate r template = some result ∧ result.1.skeleton = {}

theorem readTemplate_append (r : Reader) (as bs : List Part) :
    readTemplate r (as ++ bs) = (readTemplate r as).bind fun first =>
      (readTemplate first.1 bs).map fun rest => (rest.1, first.2 ++ rest.2) := by
  induction as generalizing r with
  | nil => simp [readTemplate]
  | cons part as ih =>
    simp only [List.cons_append, readTemplate, ih]
    cases readPart r part with
    | none => rfl
    | some first =>
      simp only [Option.bind_some]
      cases readTemplate first.1 as with
      | none => rfl
      | some second =>
        simp only [Option.bind_some, Option.map_some, Option.map_map]
        exact congrArg (Option.map · _) (funext fun rest => by simp)

theorem Complete.nil : Complete [] := fun r h => ⟨(r, []), rfl, h⟩

theorem Complete.append {as bs : List Part} (ha : Complete as) (hb : Complete bs) :
    Complete (as ++ bs) := by
  intro r h
  obtain ⟨first, hfirst, hreader⟩ := ha r h
  obtain ⟨rest, hrest, hreader⟩ := hb first.1 hreader
  refine ⟨(rest.1, first.2 ++ rest.2), ?_, hreader⟩
  rw [readTemplate_append, hfirst, Option.bind_some, hrest]
  rfl

theorem Complete.flatMap {α : Type*} {xs : List α} {f : α → List Part}
    (h : ∀ x ∈ xs, Complete (f x)) : Complete (xs.flatMap f) := by
  induction xs with
  | nil => exact .nil
  | cons x xs ih =>
    rw [List.flatMap_cons]
    exact (h x List.mem_cons_self).append (ih fun y hy => h y (List.mem_cons_of_mem _ hy))

/-- One template decides for all that differ from it in the texts that are put in. -/
theorem Complete.of_skeleton {template template' : List Part}
    (ht : template.map Part.skeleton = template'.map Part.skeleton)
    (hp : ∀ part ∈ template, part.IsPlain) (hp' : ∀ part ∈ template', part.IsPlain)
    (h : (readTemplate {} template').map (fun result => result.1.skeleton) = some {}) :
    Complete template := by
  intro r hr
  have hskeleton := readTemplate_skeleton (r := r) (s := {}) hr ht hp hp'
  obtain ⟨result', hresult', hreader'⟩ := Option.map_eq_some_iff.1 h
  rw [hresult'] at hskeleton
  obtain ⟨result, hresult, heq⟩ := Option.map_eq_some_iff.1 hskeleton
  exact ⟨result, hresult, (congrArg Prod.fst heq).trans hreader'⟩

theorem Complete.read {template : List Part} (h : Complete template) :
    ∃ result, readTemplate {} template = some result ∧ result.1.skeleton = {} ∧
      read (print template) = some result.2 := by
  obtain ⟨result, hresult, hreader⟩ := h {} rfl
  refine ⟨result, hresult, hreader, ?_⟩
  have hmode : result.1.mode = .data := congrArg Reader.mode hreader
  have hreference : result.1.reference = none := congrArg Reader.reference hreader
  rw [Html.read, run_print hresult, Option.bind_some, if_pos ⟨hmode, hreference⟩]

theorem isPlain_of_readTemplate {template : List Part} {r : Reader} {result : Reader × List Token}
    (h : readTemplate r template = some result) : ∀ part ∈ template, part.IsPlain := by
  induction template generalizing r result with
  | nil => exact fun part hmem => absurd hmem List.not_mem_nil
  | cons part template ih =>
    obtain ⟨first, hfirst, h⟩ := Option.bind_eq_some_iff.1 h
    obtain ⟨rest, hrest, -⟩ := Option.map_eq_some_iff.1 h
    refine List.forall_mem_cons.2 ⟨?_, ih hrest⟩
    cases part with
    | markup text => trivial
    | plain text =>
      simp only [readPart] at hfirst
      split_ifs at hfirst with hplain
      exact hplain
    | value text => trivial

/-- **Complete templates with the same skeleton have the same tags.** -/
theorem tags_eq_of_skeleton_eq {template template' : List Part}
    (h : template.map Part.skeleton = template'.map Part.skeleton)
    {result result' : Reader × List Token} (hresult : readTemplate {} template = some result)
    (hresult' : readTemplate {} template' = some result') : tags result.2 = tags result'.2 := by
  have hskeleton := readTemplate_skeleton (r := {}) (s := {}) rfl h
    (isPlain_of_readTemplate hresult) (isPlain_of_readTemplate hresult')
  rw [hresult, hresult'] at hskeleton
  exact congrArg Prod.snd (Option.some.inj hskeleton)

/-- The tags of a complete template. -/
def tagsOf (template : List Part) : List Token :=
  ((readTemplate {} template).map fun result => tags result.2).getD []

theorem tagsOf_eq {template : List Part} {result : Reader × List Token} {r : Reader}
    (hr : r.skeleton = {}) (h : readTemplate r template = some result) :
    tagsOf template = tags result.2 := by
  have hplain := isPlain_of_readTemplate h
  have hskeleton := readTemplate_skeleton (r := {}) (s := r) hr.symm rfl hplain hplain
  rw [h] at hskeleton
  obtain ⟨result', hresult', heq⟩ := Option.map_eq_some_iff.1 hskeleton
  rw [tagsOf, hresult']
  exact congrArg Prod.snd heq

theorem tagsOf_append {as bs : List Part} (ha : Complete as) (hb : Complete bs) :
    tagsOf (as ++ bs) = tagsOf as ++ tagsOf bs := by
  obtain ⟨first, hfirst, hreader⟩ := ha {} rfl
  obtain ⟨rest, hrest, -⟩ := hb first.1 hreader
  have happend : readTemplate {} (as ++ bs) = some (rest.1, first.2 ++ rest.2) := by
    rw [readTemplate_append, hfirst, Option.bind_some, hrest]
    rfl
  rw [tagsOf_eq rfl hfirst, tagsOf_eq hreader hrest, tagsOf_eq rfl happend, tags_append]

/-! ## Where values are shown -/

/-- The text stands in the text, or in the value of an attribute. -/
def Shown (value : List Char) (tokens : List Token) : Prop :=
  value.map .char <:+: tokens ∨ ∃ name attributes, .startTag name attributes ∈ tokens ∧
    ∃ pair ∈ attributes, value <:+: pair.2

theorem Shown.append_left {value : List Char} {tokens : List Token} (h : Shown value tokens)
    (before : List Token) : Shown value (before ++ tokens) := by
  rcases h with h | ⟨name, attributes, hmem, hpair⟩
  · exact .inl (h.trans (List.suffix_append before tokens).isInfix)
  · exact .inr ⟨name, attributes, List.mem_append_right _ hmem, hpair⟩

theorem Shown.append_right {value : List Char} {tokens : List Token} (h : Shown value tokens)
    (after : List Token) : Shown value (tokens ++ after) := by
  rcases h with h | ⟨name, attributes, hmem, hpair⟩
  · exact .inl (h.trans (List.prefix_append tokens after).isInfix)
  · exact .inr ⟨name, attributes, List.mem_append_left _ hmem, hpair⟩

namespace Reader
variable {r : Reader} {value : List Char}

/-- The reader is in a tag, and has read the text in the value of an attribute. -/
def Holds (r : Reader) (value : List Char) : Prop :=
  (r.mode = .attributeValue ∧ value <:+: r.value) ∨
    r.mode ∈ [.beforeAttributeName, .attributeName, .beforeAttributeValue, .attributeValue,
      .afterAttributeValue] ∧ ∃ pair ∈ r.attributes, value <:+: pair.2

theorem Holds.text (h : r.Holds value) {cs : List Char} {result : Reader × List Token}
    (ht : r.text cs = some result) : result.1.Holds value := by
  obtain ⟨mode, name, attributes, key, read, reference⟩ := r
  unfold Reader.text at ht
  split_ifs at ht
  cases mode <;> cases ht
  · rcases h with ⟨hmode, -⟩ | ⟨hmode, -⟩
    · cases hmode
    · simp at hmode
  · rcases h with ⟨-, hinfix⟩ | h
    · exact .inl ⟨rfl, hinfix.trans (List.prefix_append read cs).isInfix⟩
    · exact .inr h

theorem Holds.step (h : r.Holds value) {c : Char} {result : Reader × List Token}
    (hs : r.step c = some result) : result.1.Holds value ∨ Shown value result.2 := by
  obtain ⟨mode, name, attributes, key, read, reference⟩ := r
  cases reference with
  | some entity =>
    simp only [Reader.step] at hs
    split_ifs at hs
    · obtain ⟨d, -, hs⟩ := Option.bind_eq_some_iff.1 hs
      exact .inl (Holds.text (r := ⟨mode, name, attributes, key, read, none⟩) h hs)
    · cases hs
      exact .inl h
  | none =>
    simp only [Reader.step, outside] at hs
    rcases h with ⟨hmode, hinfix⟩ | ⟨hmode, pair, hpair, hinfix⟩
    · cases hmode
      dsimp only at hs hinfix
      split_ifs at hs <;> cases hs
      · exact .inl (.inr ⟨by simp, (key, read), List.mem_append_right _ List.mem_cons_self, hinfix⟩)
      · exact .inl (.inl ⟨rfl, hinfix⟩)
      · exact .inl (.inl ⟨rfl, hinfix.trans (List.prefix_append read [c]).isInfix⟩)
    · have hshown : Shown value [.startTag name attributes] :=
        .inr ⟨name, attributes, List.mem_cons_self, pair, hpair, hinfix⟩
      simp only [List.mem_cons, List.not_mem_nil, or_false] at hmode
      rcases hmode with hmode | hmode | hmode | hmode | hmode
      all_goals
        cases hmode
        dsimp only at hs
        split_ifs at hs
        all_goals
          cases hs
          first
          | exact .inr hshown
          | exact .inl (.inr ⟨by simp, pair, hpair, hinfix⟩)
          | exact .inl (.inr ⟨by simp, pair, List.mem_append_left _ hpair, hinfix⟩)

theorem Holds.run : ∀ {cs : List Char} {r : Reader} {result : Reader × List Token},
    r.Holds value → r.run cs = some result → result.1.Holds value ∨ Shown value result.2
  | [], r, result, h, hr => by
    cases hr
    exact .inl h
  | c :: cs, r, result, h, hr => by
    obtain ⟨first, hfirst, hr⟩ := Option.bind_eq_some_iff.1 hr
    obtain ⟨rest, hrest, rfl⟩ := Option.map_eq_some_iff.1 hr
    rcases h.step hfirst with h | h
    · exact (h.run hrest).imp_right (·.append_left first.2)
    · exact .inr (h.append_right rest.2)

end Reader

theorem readTemplate_holds {value : List Char} : ∀ {template : List Part} {r : Reader}
    {result : Reader × List Token}, r.Holds value → readTemplate r template = some result →
      result.1.Holds value ∨ Shown value result.2
  | [], r, result, h, hr => by
    cases hr
    exact .inl h
  | part :: template, r, result, h, hr => by
    obtain ⟨first, hfirst, hr⟩ := Option.bind_eq_some_iff.1 hr
    obtain ⟨rest, hrest, rfl⟩ := Option.map_eq_some_iff.1 hr
    have hpart : first.1.Holds value ∨ Shown value first.2 := by
      cases part with
      | markup text => exact h.run hfirst
      | plain text =>
        simp only [readPart] at hfirst
        split_ifs at hfirst
        exact .inl (h.text hfirst)
      | value text => exact .inl (h.text hfirst)
    rcases hpart with h | h
    · exact (readTemplate_holds h hrest).imp_right (·.append_left first.2)
    · exact .inr (h.append_right rest.2)

/-- **Every value of a complete template is shown**, as it was before it was escaped. -/
theorem shown_of_mem {template : List Part} {r : Reader} {result : Reader × List Token}
    (h : readTemplate r template = some result) (hend : result.1.mode = .data)
    {value : List Char} (hmem : .value value ∈ template) : Shown value result.2 := by
  induction template generalizing r result with
  | nil => cases hmem
  | cons part template ih =>
    obtain ⟨first, hfirst, h⟩ := Option.bind_eq_some_iff.1 h
    obtain ⟨rest, hrest, rfl⟩ := Option.map_eq_some_iff.1 h
    rcases List.mem_cons.1 hmem with rfl | hmem
    · obtain ⟨mode, name, attributes, key, read, reference⟩ := r
      simp only [readPart, Reader.text] at hfirst
      split_ifs at hfirst
      cases mode <;> cases hfirst
      · exact Shown.append_right (.inl (List.infix_refl _)) rest.2
      · have hholds : Reader.Holds
            ⟨.attributeValue, name, attributes, key, read ++ value, reference⟩ value :=
          .inl ⟨rfl, (List.suffix_append read value).isInfix⟩
        rcases readTemplate_holds hholds hrest with (⟨hmode, -⟩ | ⟨hmode, -⟩) | hshown
        · cases hend.symm.trans hmode
        · rw [show rest.1.mode = .data from hend] at hmode
          simp at hmode
        · exact hshown
    · exact (ih hrest hend hmem).append_left first.2

end DnsBlackhole.Lib.Html
