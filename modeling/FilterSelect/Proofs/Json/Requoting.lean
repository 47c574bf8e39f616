/-
Texts that differ in how integers are written.

An integer can stand in a text by itself or between quotes.  Which of the two changes one
token, and a token is consumed in one step, so the machine that reads documents goes through
both texts in the same states but for the documents in them.  `Requoted` is that relation on
tokens, documents, frames and states, and a step preserves it: where both texts are accepted,
the documents differ in nothing but numbers that are strings.
-/
import FilterSelect.Proofs.Json.Integers
import Mathlib.Data.List.Forall2

namespace FilterSelect

namespace Json

/-- The same token, or an integer that is written between quotes. -/
inductive Token.Requoted : Token → Token → Prop
  | same (token : Token) : Requoted token token
  | quoted {z : Int} (hz : ¬ RoundsIntoRange z) :
      Requoted (.word (Text.signedDigits z)) (.string (Text.signedDigits z))

/-- The same document but for integers that are strings. -/
inductive Document.Requoted : Document → Document → Prop
  | same (d : Document) : Requoted d d
  | quoted {z : Int} {n : Number} (hz : ¬ RoundsIntoRange z)
      (htoken : Document.ofText? (String.ofList (Text.signedDigits z)) = some (.number n)) :
      Requoted (.number n) (.string (String.ofList (Text.signedDigits z)))
  /-- An integer beyond the range of doubles denotes something only between quotes. -/
  | silent (s : String) : Requoted .meaningless (.string s)
  | array {items items' : List Document} (h : List.Forall₂ Requoted items items') :
      Requoted (.array items) (.array items')
  | object {members members' : List (Option String × Document)}
      (hkeys : members.map Prod.fst = members'.map Prod.fst)
      (h : List.Forall₂ Requoted (members.map Prod.snd) (members'.map Prod.snd)) :
      Requoted (.object members) (.object members')

/-- The same keys over the same documents but for integers that are strings. -/
structure Document.MembersRequoted (members members' : List (Option String × Document)) : Prop where
  keys : members.map Prod.fst = members'.map Prod.fst
  documents : List.Forall₂ Document.Requoted (members.map Prod.snd) (members'.map Prod.snd)

namespace Reader

/-- Frames of one kind over related documents; a key that waits for its value is the same. -/
inductive Frame.Requoted : Frame → Frame → Prop
  | array {items items' : List Document} (h : List.Forall₂ Document.Requoted items items') :
      Requoted (.array items) (.array items')
  | object {members members' : List (Option String × Document)}
      (h : Document.MembersRequoted members members') :
      Requoted (.object members) (.object members')
  | member {members members' : List (Option String × Document)} (key : Option String)
      (h : Document.MembersRequoted members members') :
      Requoted (.member members key) (.member members' key)

/-- States that expect the same and differ in documents only. -/
inductive State.Requoted : State → State → Prop
  | reading {frames frames' : List Frame} (h : List.Forall₂ Frame.Requoted frames frames')
      (next : Expected) : Requoted (.reading frames next) (.reading frames' next)
  | done {d d' : Document} (h : d.Requoted d') : Requoted (.done d) (.done d')

end Reader

/-! ### Strings of digits

No digit and no minus is escaped in a string, so what stands between the quotes is what the
string denotes.
-/

/-- Characters that stand for themselves between quotes. -/
theorem Token.units?_plain {s : List Char} (h : ∀ c ∈ s, 0x20 ≤ c.toNat ∧ c ≠ '\\') :
    Token.units? s = some (s.map Char.toNat) := by
  induction s with
  | nil => rfl
  | cons c rest ih =>
      obtain ⟨hprintable, hbackslash⟩ := h c List.mem_cons_self
      have hrest := ih fun d hd => h d (List.mem_cons_of_mem c hd)
      have hplain : ¬ (c.toNat < 0x20 ∨ c = '\\') := by
        rintro (hcontrol | hescape)
        · omega
        · exact hbackslash hescape
      rw [Token.units?, if_neg hplain, hrest, Option.map_some, List.map_cons]
      · rintro _ _ _ _ _ rfl
        exact absurd rfl hbackslash
      · rintro _ _ rfl
        exact absurd rfl hbackslash

private theorem Token.characters?_map {s : List Char} (h : ∀ c ∈ s, c.toNat < 0xD800) :
    Token.characters? (s.map Char.toNat) = some s := by
  have hplain : ∀ c ∈ s, Token.isHighSurrogate c.toNat = false ∧
      Token.isLowSurrogate c.toNat = false := by
    intro c hc
    have hc := h c hc
    simp only [Token.isHighSurrogate, Token.isLowSurrogate, Bool.and_eq_false_iff,
      decide_eq_false_iff_not]
    omega
  induction s with
  | nil => rfl
  | cons c rest ih =>
      obtain ⟨hhigh, hlow⟩ := hplain c List.mem_cons_self
      have hrest := ih (fun d hd => h d (List.mem_cons_of_mem c hd))
        fun d hd => hplain d (List.mem_cons_of_mem c hd)
      cases rest with
      | nil => simp [Token.characters?, hhigh, hlow, Char.ofNat_toNat]
      | cons d rest =>
          rw [List.map_cons] at hrest
          simp [Token.characters?, hhigh, hlow, hrest, Char.ofNat_toNat]

/-- The digits of an integer between quotes are the string of these digits. -/
theorem Reader.ofContent?_signedDigits (z : Int) :
    Reader.ofContent? (Text.signedDigits z) =
      some (some (String.ofList (Text.signedDigits z))) := by
  have hrange : ∀ c ∈ Text.signedDigits z, (0x20 ≤ c.toNat ∧ c ≠ '\\') ∧ c.toNat < 0xD800 := by
    intro c hc
    rcases mem_signedDigits hc with rfl | hdigit
    · decide
    · obtain ⟨hlow, hhigh⟩ := Char.isDigit_iff_toNat.mp hdigit
      have hlow' : 48 ≤ c.toNat := hlow
      have hhigh' : c.toNat ≤ 57 := hhigh
      refine ⟨⟨by omega, ?_⟩, by omega⟩
      rintro rfl
      exact absurd hdigit (by decide)
  rw [Reader.ofContent?, Token.units?_plain fun c hc => (hrange c hc).1, Option.map_some,
    Token.characters?_map fun c hc => (hrange c hc).2, Option.map_some]

/-! ### Steps of the machine

A token is consumed in one step, and the step looks at documents only to put them away.  So
related states take related steps, as long as both texts are read.
-/

namespace Reader

open Document (MembersRequoted)

variable {frames frames' outer outer' : List Frame} {d d' : Document} {state state' : State}
  {token token' : Token}

private theorem requoted_nil : MembersRequoted [] [] := ⟨rfl, .nil⟩

private theorem requoted_cons {members members' : List (Option String × Document)}
    (key : Option String)
    (hd : d.Requoted d') (h : MembersRequoted members members') :
    MembersRequoted ((key, d) :: members) ((key, d') :: members') where
  keys := by rw [List.map_cons, List.map_cons, h.keys]
  documents := .cons hd h.documents

private theorem requoted_reverse {members members' : List (Option String × Document)}
    (h : MembersRequoted members members') :
    Document.Requoted (.object members.reverse) (.object members'.reverse) := by
  refine .object ?_ ?_
  · rw [List.map_reverse, List.map_reverse, h.keys]
  · rw [List.map_reverse, List.map_reverse]
    exact List.rel_reverse h.documents

private theorem place_requoted (h : List.Forall₂ Frame.Requoted frames frames') (hd : d.Requoted d')
    (hplace : place d frames = some state) (hplace' : place d' frames' = some state') :
    state.Requoted state' := by
  cases h with
  | nil =>
      cases hplace
      cases hplace'
      exact .done hd
  | cons hframe houter =>
      cases hframe with
      | array hitems =>
          cases hplace
          cases hplace'
          exact .reading (.cons (.array (.cons hd hitems)) houter) _
      | object hmembers => cases hplace
      | member key hmembers =>
          cases hplace
          cases hplace'
          exact .reading (.cons (.object (requoted_cons key hd hmembers)) houter) _

private theorem atDepth_requoted (h : List.Forall₂ Frame.Requoted outer outer')
    (hd : d.Requoted d') :
    (atDepth outer d).Requoted (atDepth outer' d') := by
  rw [atDepth, atDepth, h.length_eq]
  split
  · exact hd
  · exact .same _

private theorem closeArray_requoted (h : List.Forall₂ Frame.Requoted frames frames')
    (hclose : closeArray frames = some state) (hclose' : closeArray frames' = some state') :
    state.Requoted state' := by
  cases h with
  | nil => cases hclose
  | cons hframe houter =>
      cases hframe with
      | array hitems =>
          have hd : Document.Requoted (.array _) (.array _) := .array (List.rel_reverse hitems)
          exact place_requoted houter (atDepth_requoted houter hd) hclose hclose'
      | object hmembers => cases hclose
      | member key hmembers => cases hclose

private theorem closeObject_requoted (h : List.Forall₂ Frame.Requoted frames frames')
    (hclose : closeObject frames = some state) (hclose' : closeObject frames' = some state') :
    state.Requoted state' := by
  cases h with
  | nil => cases hclose
  | cons hframe houter =>
      cases hframe with
      | array hitems => cases hclose
      | object hmembers =>
          have hd := atDepth_requoted houter (requoted_reverse hmembers)
          exact place_requoted houter hd hclose hclose'
      | member key hmembers => cases hclose

/-- What an integer writes by itself is what it writes between quotes, as a number. -/
theorem ofWord?_requoted {z : Int} (hz : ¬ RoundsIntoRange z)
    (h : ofWord? (Text.signedDigits z) = some d) :
    d.Requoted (.string (String.ofList (Text.signedDigits z))) := by
  have htext := Document.ofText?_word (signedDigits_ne_nil z) (isWordChar_signedDigits z)
  rw [h] at htext
  have hd := htext.symm.trans (Document.ofText?_signedDigits z)
  cases hnumber : (Numeral.ofInt z).toNumber? with
  | none =>
      rw [hnumber] at hd
      cases hd
      exact .silent _
  | some n =>
      rw [hnumber] at hd
      cases hd
      exact .quoted hz htext

private theorem startValue_requoted (h : List.Forall₂ Frame.Requoted frames frames')
    (htoken : token.Requoted token') (hstart : startValue frames token = some state)
    (hstart' : startValue frames' token' = some state') : state.Requoted state' := by
  cases htoken with
  | quoted hz =>
      simp only [startValue, ofContent?_signedDigits, Option.bind_some] at hstart hstart'
      rw [Option.bind_eq_some_iff] at hstart
      obtain ⟨d, hd, hplace⟩ := hstart
      exact place_requoted h (ofWord?_requoted hz hd) hplace hstart'
  | same =>
      cases token with
      | openArray =>
          cases hstart
          cases hstart'
          exact .reading (.cons (.array .nil) h) _
      | openObject =>
          cases hstart
          cases hstart'
          exact .reading (.cons (.object requoted_nil) h) _
      | word letters =>
          simp only [startValue, Option.bind_eq_some_iff] at hstart hstart'
          obtain ⟨d, hd, hplace⟩ := hstart
          obtain ⟨d', hd', hplace'⟩ := hstart'
          cases hd.symm.trans hd'
          exact place_requoted h (.same d) hplace hplace'
      | string content =>
          simp only [startValue, Option.bind_eq_some_iff] at hstart hstart'
          obtain ⟨found, hfound, hplace⟩ := hstart
          obtain ⟨found', hfound', hplace'⟩ := hstart'
          cases hfound.symm.trans hfound'
          cases found with
          | none => exact place_requoted h (.same _) hplace hplace'
          | some s => exact place_requoted h (.same _) hplace hplace'
      | _ => cases hstart

private theorem startMember_requoted (h : List.Forall₂ Frame.Requoted frames frames')
    (htoken : token.Requoted token') (hstart : startMember frames token = some state)
    (hstart' : startMember frames' token' = some state') : state.Requoted state' := by
  cases htoken with
  | quoted hz => cases hstart
  | same =>
      cases token with
      | string content =>
          cases h with
          | nil => cases hstart
          | cons hframe houter =>
              cases hframe with
              | object hmembers =>
                  simp only [startMember, Option.map_eq_some_iff] at hstart hstart'
                  obtain ⟨key, hkey, rfl⟩ := hstart
                  obtain ⟨key', hkey', rfl⟩ := hstart'
                  cases hkey.symm.trans hkey'
                  exact .reading (.cons (.member key hmembers) houter) _
              | array hitems => cases hstart
              | member key hmembers => cases hstart
      | _ => cases hstart

private theorem step_commaOrClose_requoted (h : List.Forall₂ Frame.Requoted frames frames')
    (htoken : token.Requoted token')
    (hstep : step (.reading frames .commaOrClose) token = some state)
    (hstep' : step (.reading frames' .commaOrClose) token' = some state') :
    state.Requoted state' := by
  cases htoken with
  | quoted hz => cases hstep
  | same =>
      cases token with
      | closeArray => exact closeArray_requoted h hstep hstep'
      | closeObject => exact closeObject_requoted h hstep hstep'
      | comma =>
          cases h with
          | nil => cases hstep
          | cons hframe houter =>
              cases hframe with
              | array hitems =>
                  cases hstep
                  cases hstep'
                  exact .reading (.cons (.array hitems) houter) _
              | object hmembers =>
                  cases hstep
                  cases hstep'
                  exact .reading (.cons (.object hmembers) houter) _
              | member key hmembers => cases hstep
      | _ => cases hstep

/-- States stay the same but for integers that are strings. -/
theorem step_requoted (h : state.Requoted state') (htoken : token.Requoted token')
    {next next' : State} (hstep : step state token = some next)
    (hstep' : step state' token' = some next') : next.Requoted next' := by
  -- an integer is no punctuation, by itself or between quotes
  have hmark : ∀ mark : Token, mark = .closeArray ∨ mark = .closeObject ∨ mark = .colon →
      (token = mark ↔ token' = mark) := by
    intro mark hmark
    cases htoken with
    | same => exact Iff.rfl
    | quoted hz => rcases hmark with rfl | rfl | rfl <;> simp
  cases h with
  | done hd => cases hstep
  | reading hframes expected =>
      cases expected with
      | value => exact startValue_requoted hframes htoken hstep hstep'
      | valueOrClose =>
          rw [step] at hstep hstep'
          split at hstep
          · rename_i hclose
            rw [if_pos ((hmark .closeArray (by simp)).mp hclose)] at hstep'
            exact closeArray_requoted hframes hstep hstep'
          · rename_i hopen
            rw [if_neg fun hclose => hopen ((hmark .closeArray (by simp)).mpr hclose)] at hstep'
            exact startValue_requoted hframes htoken hstep hstep'
      | key => exact startMember_requoted hframes htoken hstep hstep'
      | keyOrClose =>
          rw [step] at hstep hstep'
          split at hstep
          · rename_i hclose
            rw [if_pos ((hmark .closeObject (by simp)).mp hclose)] at hstep'
            exact closeObject_requoted hframes hstep hstep'
          · rename_i hopen
            rw [if_neg fun hclose => hopen ((hmark .closeObject (by simp)).mpr hclose)] at hstep'
            exact startMember_requoted hframes htoken hstep hstep'
      | colon =>
          rw [step] at hstep hstep'
          split at hstep
          · rename_i hcolon
            rw [if_pos ((hmark .colon (by simp)).mp hcolon)] at hstep'
            cases hstep
            cases hstep'
            exact .reading hframes _
          · cases hstep
      | commaOrClose => exact step_commaOrClose_requoted hframes htoken hstep hstep'

theorem run_requoted {tokens tokens' : List Token}
    (htokens : List.Forall₂ Token.Requoted tokens tokens') (h : state.Requoted state')
    {last last' : State} (hrun : run state tokens = some last)
    (hrun' : run state' tokens' = some last') : last.Requoted last' := by
  induction htokens generalizing state state' with
  | nil =>
      cases hrun
      cases hrun'
      exact h
  | cons htoken hrest ih =>
      rw [run] at hrun hrun'
      split at hrun
      · rename_i hstep
        split at hrun'
        · rename_i hstep'
          exact ih (step_requoted h htoken hstep hstep') hrun hrun'
        · cases hrun'
      · cases hrun

end Reader

/-- Two texts whose tokens are the same but for integers that are written between quotes. -/
def RequotedText (s s' : String) : Prop :=
  ∃ tokens tokens', Token.all? s.toList = some tokens ∧ Token.all? s'.toList = some tokens' ∧
    List.Forall₂ Token.Requoted tokens tokens'

/-- One integer of a text is put between quotes. -/
theorem requotedText_of_tokens {s s' : String} {z : Int} (hz : ¬ RoundsIntoRange z)
    (before after : List Token)
    (h : Token.all? s.toList = some (before ++ .word (Text.signedDigits z) :: after))
    (h' : Token.all? s'.toList = some (before ++ .string (Text.signedDigits z) :: after)) :
    RequotedText s s' := by
  have hsame : ∀ tokens, List.Forall₂ Token.Requoted tokens tokens :=
    fun tokens => List.forall₂_same.mpr fun token _ => .same token
  exact ⟨_, _, h, h', List.rel_append (hsame before) (.cons (.quoted hz) (hsame after))⟩

/-- Texts that differ in how integers are written are documents that do. -/
theorem Document.ofText?_requoted {s s' : String} (h : RequotedText s s') {d d' : Document}
    (hd : Document.ofText? s = some d) (hd' : Document.ofText? s' = some d') : d.Requoted d' := by
  obtain ⟨tokens, tokens', hall, hall', htokens⟩ := h
  simp only [Document.ofText?, hall] at hd
  simp only [Document.ofText?, hall'] at hd'
  split at hd
  · rename_i hrun
    split at hd'
    · rename_i hrun'
      cases hd
      cases hd'
      cases Reader.run_requoted htokens (.reading .nil _) hrun hrun' with
      | done hdone => exact hdone
    · cases hd'
  · cases hd

end Json

end FilterSelect
