import Almanac.Calendar.Basic
import Almanac.Proofs.Component.Broken
import Almanac.Proofs.Property.OneLine

/-!
Calendars that are put together by the setters, and what becomes of them when they are written and
read back.

    new for a program ──set version──▶ … ──add event──▶ … ──set title of event 0──▶ …

Whatever the setters are given, every line but one kind begins and ends as it should (`Composed`):
texts are escaped, and numbers, moments and lengths have no line feed.  The exceptions are the
addresses, which are written as they are.  So a calendar is returned exactly if none of its
addresses has a line feed in it (`returns_iff_unbroken`).
-/

namespace Almanac

/-! ### Actions -/

namespace Calendar

/-- One thing that is done to a calendar or to one of its events and alarms, which are named by
their places. -/
inductive Action where
  /-- A property of the calendar is set. -/
  | edit (edit : Edit)
  /-- An event is added. -/
  | addEvent (uid : String)
  /-- A time zone is added. -/
  | addTimezone (id : String)
  /-- A property of an event is set or added. -/
  | editEvent (i : Nat) (edit : Event.Edit)
  /-- An alarm is added to an event. -/
  | addAlarm (i : Nat)
  /-- A property of an alarm of an event is set. -/
  | editAlarm (i j : Nat) (edit : Alarm.Edit)

/-- A change of a component, made only if it is of a kind. -/
def ifRole (role : Role) (change : Component → Component) (c : Component) : Component :=
  if c.is role then change c else c

/-- The calendar after an action. -/
def act (c : Calendar) : Action → Calendar
  | .edit edit => c.edit edit
  | .addEvent uid => c.push (Event.new uid).toComponent
  | .addTimezone id => c.push (Timezone.new id).toComponent
  | .editEvent i edit => c.modifyAt (ifRole .event (·.change edit.change)) [i]
  | .addAlarm i => c.modifyAt (ifRole .event (·.push (.ofRole .alarm))) [i]
  | .editAlarm i j edit => c.modifyAt (ifRole .alarm (·.change edit.change)) [i, j]

/-- People are added without parameters. -/
def Action.Bare : Action → Prop
  | .editEvent _ (.attendee _ params) => params = []
  | _ => True

/-- The calendar of a program after some actions. -/
def composed (productId : String) (actions : List Action) : Calendar :=
  actions.foldl act (newFor productId)

/-- The written calendar is read, and the result has the same names and values of properties and the
same components. -/
def Returns (c : Calendar) : Prop :=
  ∃ found, ofText c.text = .ok found ∧
    (found.properties.map fun p => (p.name, p.value))
      = (c.properties.map fun p => (p.name, p.value)) ∧
    found.components = c.components

end Calendar

namespace Property

/-- Whether its value is the address of something or someone. -/
def isAddress (p : Property) : Bool := ["URL", "ORGANIZER", "ATTENDEE", "ATTACH"].any p.isNamed

/-- A property as the setters make it. -/
structure Composed (p : Property) : Prop extends p.Framed where
  /-- Its value does not end the line unless it is escaped or an address. -/
  value_feed : p.isText = false → p.isAddress = false → '\n' ∉ p.value.toList
  /-- An address is not escaped. -/
  address_raw : p.isAddress = true → p.isText = false

end Property

/-- None of the addresses in a calendar has a line feed in it. -/
def Calendar.Unbroken (c : Calendar) : Prop :=
  ∀ p ∈ c.everyProperty, p.isAddress = true → '\n' ∉ p.value.toList

/-! ### Names in either case -/

namespace Property

variable {p q : Property}

theorem isText_congr (h : Text.caseless p.name = Text.caseless q.name) (hp : p.params = q.params) :
    p.isText = q.isText := by
  simp only [isText, type, ValueType.resolve, ValueType.ofProperty, Text.lookUp?, Text.sameName, h,
    hp]

theorem isAddress_congr (h : Text.caseless p.name = Text.caseless q.name) :
    p.isAddress = q.isAddress := by
  have hn : p.isNamed = q.isNamed := by
    funext name
    rw [isNamed, isNamed, Text.sameName, Text.sameName, h]
  rw [isAddress, isAddress, hn]

/-- What takes the place of a property of the same name is as good as what it is made from. -/
theorem Composed.replace (hq : q.Composed) (hp : p.Composed) (hn : q.isNamed p.name = true) :
    Composed { q with params := p.params, value := p.value } := by
  have hc : Text.caseless q.name = Text.caseless p.name := Text.sameName_iff.1 hn
  have ht : isText { q with params := p.params, value := p.value } = p.isText :=
    isText_congr hc rfl
  have ha : isAddress { q with params := p.params, value := p.value } = p.isAddress :=
    isAddress_congr hc
  refine { hq.toFramed with
    params_clean := hp.params_clean
    params_feed := hp.params_feed
    value_feed := ?_
    address_raw := ?_ }
  · rw [ht, ha]
    exact hp.value_feed
  · rw [ht, ha]
    exact hp.address_raw

/-- A property as the setters make it is safe unless it is an address that ends its line. -/
theorem Composed.lineSafe (h : p.Composed) (hu : p.isAddress = true → '\n' ∉ p.value.toList) :
    p.LineSafe := by
  refine { h.toFramed with value_feed := fun ht => ?_ }
  cases ha : p.isAddress with
  | true => exact hu ha
  | false => exact h.value_feed ht ha

/-! ### What the setters make -/

theorem Framed.of_name {name value : String} {params : List Param} (h : Framed ⟨name, [], ""⟩)
    (hp : ∀ q ∈ params, q.Clean ∧ '\n' ∉ q.name.toList) : Framed ⟨name, params, value⟩ :=
  { name_ne := h.name_ne
    name_plain := h.name_plain
    params_clean := fun q hq => (hp q hq).1
    opens := h.opens
    name_feed := h.name_feed
    params_feed := fun q hq => (hp q hq).2
    not_begin := h.not_begin
    not_end := h.not_end }

theorem composed_text {name : String} (h : Framed ⟨name, [], ""⟩ ∧
    isText ⟨name, [], ""⟩ = true ∧ isAddress ⟨name, [], ""⟩ = false) (value : String) :
    Composed (plain name value) :=
  { Framed.of_name h.1 fun _ hq => absurd hq List.not_mem_nil with
    value_feed := fun ht _ => by
      have hn : isText ⟨name, [], ""⟩ = false := ht
      rw [h.2.1] at hn
      cases hn
    address_raw := fun ha => by
      have hn : isAddress ⟨name, [], ""⟩ = true := ha
      rw [h.2.2] at hn
      cases hn }

theorem composed_value {name value : String} {params : List Param} (h : Framed ⟨name, [], ""⟩ ∧
    isAddress ⟨name, [], ""⟩ = false) (hp : ∀ q ∈ params, q.Clean ∧ '\n' ∉ q.name.toList)
    (hv : '\n' ∉ value.toList) : Composed ⟨name, params, value⟩ :=
  { Framed.of_name h.1 hp with
    value_feed := fun _ _ => hv
    address_raw := fun ha => by
      have hn : isAddress ⟨name, [], ""⟩ = true := ha
      rw [h.2] at hn
      cases hn }

theorem composed_address {name value : String} {params : List Param} (h : Framed ⟨name, [], ""⟩ ∧
    isAddress ⟨name, [], ""⟩ = true) (hp : ∀ q ∈ params, q.Clean ∧ '\n' ∉ q.name.toList)
    (ht : (ValueType.resolve name params).isText = false) : Composed ⟨name, params, value⟩ :=
  { Framed.of_name h.1 hp with
    value_feed := fun _ ha => by
      have hn : isAddress ⟨name, [], ""⟩ = false := ha
      rw [h.2] at hn
      cases hn
    address_raw := fun _ => ht }

end Property

theorem Param.clean_single {name : String} (h : (single name "").Clean ∧ '\n' ∉ name.toList)
    (value : String) : (single name value).Clean ∧ '\n' ∉ (single name value).name.toList :=
  ⟨⟨h.1.name_ne, h.1.name_plain⟩, h.2⟩

/-- A parameter of another name does not decide the type. -/
theorem ValueType.resolve_cons {q : Param} (h : q.isNamed "VALUE" = false) (name : String)
    (params : List Param) : resolve name (q :: params) = resolve name params := by
  rw [resolve, List.find?_cons, h]
  rfl

/-- What a change puts among the properties is as the setters make it. -/
def Store.Change.Composed : Store.Change → Prop
  | .set p => p.Composed
  | .add p => p.Composed

open Property

theorem Calendar.Edit.composed : ∀ edit : Calendar.Edit, edit.change.Composed
  | .version text => composed_text (by decide) text
  | .productId text => composed_text (by decide) text
  | .method text => composed_text (by decide) text
  | .scale text => composed_text (by decide) text
  | .name text => composed_text (by decide) text
  | .displayName text => composed_text (by decide) text
  | .displayDescription text => composed_text (by decide) text
  | .displayTimezone text => composed_text (by decide) text
  | .description text => composed_text (by decide) text
  | .url text => composed_address (by decide) (by simp) (by decide)
  | .color text => composed_text (by decide) text
  | .refreshInterval d => composed_value (by decide) (by decide) (by simp)

theorem Alarm.Edit.composed : ∀ edit : Alarm.Edit, edit.change.Composed
  | .action a => composed_text (by decide) a.text
  | .trigger d => composed_value (by decide) (by simp) (by simp)
  | .description words => composed_text (by decide) words

/-- An event property with at most one parameter, which is not of the name `VALUE`. -/
theorem composed_address_option {name key value : String} (h : Framed ⟨name, [], ""⟩ ∧
    isAddress ⟨name, [], ""⟩ = true ∧ (ValueType.resolve name []).isText = false)
    (hk : ((Param.single key "").Clean ∧ '\n' ∉ key.toList) ∧ Text.sameName key "VALUE" = false) :
    ∀ word : Option String, Composed ⟨name, (word.map (Param.single key)).toList, value⟩
  | none => composed_address ⟨h.1, h.2.1⟩ (by simp) h.2.2
  | some word => by
    refine composed_address ⟨h.1, h.2.1⟩ ?_ ?_
    · simpa using Param.clean_single hk.1 word
    · rw [Option.map_some, Option.toList_some, ValueType.resolve_cons (q := .single key word) hk.2]
      exact h.2.2

theorem Event.Edit.composed : ∀ edit : Event.Edit,
    (∀ address params, edit = .attendee address params → params = []) → edit.change.Composed
  | .uid id, _ => composed_text (by decide) id
  | .stampedAt t, _ => composed_value (by decide) (by simp) (by simp)
  | .createdAt t, _ => composed_value (by decide) (by simp) (by simp)
  | .modifiedAt t, _ => composed_value (by decide) (by simp) (by simp)
  | .sequence n, _ => composed_value (by decide) (by simp) (by simp [number])
  | .summary words, _ => composed_text (by decide) words
  | .description words, _ => composed_text (by decide) words
  | .location words, _ => composed_text (by decide) words
  | .url address, _ => composed_address (by decide) (by simp) (by decide)
  | .status s, _ => composed_text (by decide) s.text
  | .access a, _ => composed_text (by decide) a.text
  | .priority n, _ => composed_value (by decide) (by simp) (by simp [number])
  | .presence p, _ => composed_text (by decide) p.text
  | .color name, _ => composed_text (by decide) name
  | .position latitude longitude, _ => composed_value (by decide) (by simp) (by simp)
  | .organizer address name, _ => composed_address_option (by decide) (by decide) name
  | .startAt t, _ => composed_value (by decide) (by simp) (by simp)
  | .endAt t, _ => composed_value (by decide) (by simp) (by simp)
  | .startDay t, _ => composed_value (by decide) (by decide) (by simp)
  | .endDay t, _ => composed_value (by decide) (by decide) (by simp)
  | .duration d, _ => composed_value (by decide) (by simp) (by simp)
  | .rule r, _ => composed_value (by decide) (by simp) (by simp)
  | .attendee address params, h => by
    cases h address params rfl
    exact composed_address (by decide) (by simp) (by decide)
  | .attachment address media, _ => composed_address_option (by decide) (by decide) media
  | .attachedBytes bytes media, _ => by
    refine composed_address (by decide) ?_ ?_
    · simpa using ⟨Param.clean_single (by decide) media, by decide⟩
    · have hm : Text.sameName "FMTTYPE" "VALUE" = false := by decide
      rw [ValueType.resolve_cons (q := .fmttype media) hm]
      decide
  | .exceptAt t, _ => composed_value (by decide) (by simp) (by simp)
  | .alsoAt t, _ => composed_value (by decide) (by simp) (by simp)

/-! ### What actions keep -/

theorem Store.composed_set {new : Property} (hn : new.Composed) : ∀ {store : List Property},
    (∀ p ∈ store, p.Composed) → ∀ p ∈ Store.set store new, p.Composed
  | [], _, p, hp => by
    rw [Store.set, List.mem_singleton] at hp
    exact hp ▸ hn
  | q :: store, h, p, hp => by
    have hq : q.Composed := h q List.mem_cons_self
    have hrest : ∀ r ∈ store, r.Composed := fun r hr => h r (List.mem_cons_of_mem q hr)
    rw [Store.set] at hp
    split at hp
    · next hname =>
      rcases List.mem_cons.1 hp with rfl | hp
      · exact hq.replace hn hname
      · exact hrest p hp
    · rcases List.mem_cons.1 hp with rfl | hp
      · exact hq
      · exact Store.composed_set hn hrest p hp

theorem Store.composed_apply {store : List Property} (h : ∀ p ∈ store, p.Composed) :
    ∀ {change : Store.Change}, change.Composed → ∀ p ∈ Store.apply store change, p.Composed
  | .set _, hc => Store.composed_set hc h
  | .add _, hc => by
    intro p hp
    rcases List.mem_append.1 hp with hp | hp
    · exact h p hp
    · rw [List.mem_singleton] at hp
      exact hp ▸ hc

/-- A component as the setters make it. -/
def Component.Composed (d : Nat) (c : Component) : Prop :=
  c.Within Token.LineSafe Property.Composed d

namespace Component

theorem Composed.change {change : Store.Change} (hc : change.Composed) :
    ∀ {d : Nat} {c : Component}, c.Composed d → (c.change change).Composed d
  | 0, _, h => h.elim
  | _ + 1, ⟨_, _, _⟩, ⟨ht, hp, hs⟩ => ⟨ht, Store.composed_apply hp hc, hs⟩

theorem Composed.push {child : Component} : ∀ {d : Nat} {c : Component}, c.Composed (d + 1) →
    child.Composed d → (c.push child).Composed (d + 1)
  | _, ⟨_, _, _⟩, ⟨ht, hp, hs⟩, h => by
    refine ⟨ht, hp, fun e he => ?_⟩
    rcases List.mem_append.1 he with he | he
    · exact hs e he
    · rw [List.mem_singleton] at he
      exact he ▸ h

theorem forall_modify {P : Component → Prop} {f : Component → Component} (hf : ∀ c, P c → P (f c)) :
    ∀ {cs : List Component} (i : Nat), (∀ c ∈ cs, P c) → ∀ c ∈ cs.modify i f, P c
  | [], i, h, c, hc => by
    simp at hc
  | c :: cs, 0, h, e, he => by
    rw [List.modify_zero_cons] at he
    rcases List.mem_cons.1 he with rfl | he
    · exact hf c (h c List.mem_cons_self)
    · exact h e (List.mem_cons_of_mem c he)
  | c :: cs, i + 1, h, e, he => by
    rw [List.modify_succ_cons] at he
    rcases List.mem_cons.1 he with rfl | he
    · exact h e List.mem_cons_self
    · exact forall_modify hf i (fun x hx => h x (List.mem_cons_of_mem c hx)) e he

/-- A change that keeps components as the setters make them may be made at any place. -/
theorem Composed.modifyAt {d : Nat} {f : Component → Component}
    (hf : ∀ c, Composed d c → (f c).Composed d) : ∀ (path : List Nat) {c : Component},
    c.Composed (d + path.length) → (Component.modifyAt f path c).Composed (d + path.length)
  | [], c, h => hf c h
  | i :: path, ⟨_, _, _⟩, ⟨ht, hp, hs⟩ =>
    ⟨ht, hp, forall_modify (fun _ hc => Composed.modifyAt hf path hc) i hs⟩

end Component

namespace Calendar

/-- A calendar as the setters make it. -/
structure Composed (c : Calendar) : Prop where
  /-- Its properties are as the setters make them. -/
  properties : ∀ p ∈ c.properties, p.Composed
  /-- So are its components, which are at most thirty-two deep. -/
  components : ∀ d ∈ c.components, d.Composed 32

theorem Composed.edit {c : Calendar} (h : c.Composed) (edit : Edit) : (c.edit edit).Composed :=
  ⟨Store.composed_apply h.properties edit.composed, h.components⟩

theorem Composed.push {c : Calendar} (h : c.Composed) {child : Component}
    (hc : child.Composed 32) : (c.push child).Composed := by
  refine ⟨h.properties, fun d hd => ?_⟩
  rcases List.mem_append.1 hd with hd | hd
  · exact h.components d hd
  · rw [List.mem_singleton] at hd
    exact hd ▸ hc

theorem Composed.modifyAt {c : Calendar} (h : c.Composed) {d : Nat} {role : Role}
    {change : Component → Component} (hf : ∀ e, e.Composed d → (change e).Composed d) (i : Nat)
    (path : List Nat) (hd : d + path.length = 32) :
    (c.modifyAt (ifRole role change) (i :: path)).Composed := by
  refine ⟨h.properties, Component.forall_modify (fun e he => ?_) i h.components⟩
  rw [← hd] at he ⊢
  refine Component.Composed.modifyAt (fun e he => ?_) path he
  unfold ifRole
  split
  · exact hf e he
  · exact he

theorem composed_newFor (productId : String) : (newFor productId).Composed := by
  refine Composed.edit (Composed.edit ⟨?_, ?_⟩ (.version "2.0")) (.productId productId) <;> simp

/-- An action keeps a calendar as the setters make it. -/
theorem Composed.act {c : Calendar} (h : c.Composed) : ∀ {action : Action}, action.Bare →
    (c.act action).Composed
  | .edit e, _ => h.edit e
  | .addEvent uid, _ => h.push ⟨trivial, Store.composed_apply (by simp)
      (Event.Edit.composed (.uid uid) (by simp)), by simp [Event.new, Event.edit]⟩
  | .addTimezone id, _ => h.push ⟨trivial,
      Store.composed_set (composed_text (by decide) id) (by simp), by simp [Timezone.new]⟩
  | .editEvent i e, hb => by
    refine h.modifyAt (fun d hd => hd.change (e.composed ?_)) i [] rfl
    rintro address params rfl
    exact hb
  | .addAlarm i, _ => by
    have ha : (Component.ofRole .alarm).Composed 31 := ⟨trivial, by simp, by simp⟩
    exact h.modifyAt (d := 32) (fun d hd => hd.push ha) i [] rfl
  | .editAlarm i j e, _ => h.modifyAt (fun d hd => hd.change e.composed) i [j] rfl

/-- Any number of actions do. -/
theorem Composed.foldl_act : ∀ {actions : List Action} {c : Calendar}, c.Composed →
    (∀ action ∈ actions, action.Bare) → (actions.foldl Calendar.act c).Composed
  | [], _, hc, _ => hc
  | action :: _, _, hc, hb => by
    have hnext := hc.act (hb action List.mem_cons_self)
    rw [List.foldl_cons]
    exact hnext.foldl_act fun next hn => hb next (List.mem_cons_of_mem action hn)

theorem composed_composed (productId : String) {actions : List Action}
    (h : ∀ action ∈ actions, action.Bare) : (composed productId actions).Composed :=
  (composed_newFor productId).foldl_act h

/-! ### Writing and reading back -/

theorem Composed.of_mem {c : Calendar} (h : c.Composed) {p : Property}
    (hp : p ∈ c.everyProperty) : p.Composed := by
  rcases mem_everyProperty.1 hp with hp | ⟨d, hd, hp⟩
  · exact h.properties p hp
  · exact (h.components d hd).of_mem p hp

/-- A calendar as the setters make it is safe if its addresses are. -/
theorem Composed.lineSafe {c : Calendar} (h : c.Composed) (hu : c.Unbroken) : c.LineSafe := by
  refine ⟨fun p hp => ?_, fun d hd => ?_⟩
  · exact (h.properties p hp).lineSafe (hu p (mem_everyProperty.2 (.inl hp)))
  · exact (h.components d hd).imp fun p hp hc =>
      hc.lineSafe (hu p (mem_everyProperty.2 (.inr ⟨d, hd, hp⟩)))

/-- The properties of a calendar that is returned are safe: at the first one that is not, the value
that is read would end at the line feed. -/
theorem Composed.lineSafe_of_returns {c : Calendar} (h : c.Composed) (hr : c.Returns) :
    ∀ p ∈ c.properties, p.LineSafe := by
  obtain ⟨found, hf, hp, -⟩ := hr
  by_contra hbroken
  obtain ⟨p, hfind⟩ : ∃ p, c.properties.find? (fun p => !decide p.LineSafe) = some p := by
    rw [← Option.isSome_iff_exists, List.find?_isSome]
    simpa using hbroken
  obtain ⟨hb, good, more, hsplit, hgood⟩ := List.find?_eq_some_iff_append.1 hfind
  have hb : ¬ p.LineSafe := by simpa using hb
  have hgood : ∀ q ∈ good, q.LineSafe := by simpa using hgood
  have hc : p.Composed := h.properties p (by rw [hsplit]; simp)
  have ht : p.isText = false := by
    by_contra ht
    exact hb { hc.toFramed with value_feed := fun hn => absurd hn ht }
  obtain ⟨value, others, hfound, hfeed⟩ := properties_of_framed hsplit hgood hc.toFramed ht hf
  rw [hfound, hsplit, List.map_append, List.map_append, List.append_cancel_left_eq, List.map_cons,
    List.map_cons, List.cons.injEq, Prod.mk.injEq] at hp
  refine hb { hc.toFramed with value_feed := fun _ => ?_ }
  rw [← hp.1.2]
  exact hfeed

/-- A calendar that is returned has no line feed in an address. -/
theorem Composed.unbroken {c : Calendar} (h : c.Composed) (hr : c.Returns) : c.Unbroken := by
  intro p hp ha
  have ht : p.isText = false := (h.of_mem hp).address_raw ha
  rcases mem_everyProperty.1 hp with hp | hp
  · exact (h.lineSafe_of_returns hr p hp).value_feed ht
  · obtain ⟨found, hf, -, hc⟩ := hr
    rw [← hc] at hp
    exact lineFeed_not_mem_value hf (mem_everyProperty.2 (.inr hp)) ht

/-- A calendar put together by the setters is returned exactly if none of its addresses has a line
feed in it. -/
theorem returns_iff_unbroken (productId : String) (actions : List Action)
    (h : ∀ action ∈ actions, action.Bare) :
    (composed productId actions).Returns ↔ (composed productId actions).Unbroken := by
  have hc := composed_composed productId h
  constructor
  · exact hc.unbroken
  · intro hu
    obtain ⟨clauses, hs, hd⟩ := (hc.lineSafe hu).document
    exact ⟨_, ofText_of_stands hs hd, rfl, rfl⟩

/-- A meeting with every kind of action is returned. -/
theorem meeting_returns_iff_unbroken :
    let actions : List Action := [.edit (.name "a\nb;c"), .addTimezone "x\ny", .addEvent "\n",
      .editEvent 1 (.organizer "boss" (some "x\"\n^:;")), .editEvent 1 (.attendee "mailto:a\r" []),
      .addAlarm 1, .editAlarm 1 0 (.description "END:VALARM\r\n")]
    (∀ action ∈ actions, action.Bare) ∧
      ((composed ownProductId actions).Returns ↔ (composed ownProductId actions).Unbroken) :=
  ⟨by simp [Action.Bare], returns_iff_unbroken ownProductId _ (by simp [Action.Bare])⟩

/-- A calendar is not returned if its address has a line feed and a colon in it. -/
theorem not_returns_of_url_feed :
    ¬ (composed ownProductId [.edit (.url "x\ny:z")]).Returns := by
  intro h
  have hu := (composed_composed ownProductId (by simp [Action.Bare])).unbroken h
  exact hu (.plain "URL" "x\ny:z") (by decide) (by decide) (by decide)

end Calendar

end Almanac
