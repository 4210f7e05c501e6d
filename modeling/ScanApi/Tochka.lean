import ScanApi.BankSpecs
import ScanApi.SberServices

/-!
The products of Tochka (`tochka_parser.py`) that have a spec. The tags of a product are
prefixed with its name before the spec is read, which renames its services and does
nothing else (`prefixed_product`); so no service belongs to two products, whatever tags
their specs use.
-/
namespace ScanApi.Tochka
open ScanApi.Raising ScanApi.Yaml ScanApi.Python ScanApi.Refs ScanApi.OpenApi ScanApi.AlikeSpecs ScanApi.TagPass ScanApi.BankSpecs
open ScanApi.ReorderedSnapshots

def bankSpecUrl : String := "https://enter.tochka.com/doc/openapi/swagger.json"
def bankPortalBase : String := "https://developers.tochka.com/docs/tochka-api/api"
def bankPrefix : String := "Точка Банк"

def payGatewaySpecUrl : String := "https://api.tochka.com/static/v1/pay-gateway/docs/tochka-pay-gateway.json"
def payGatewayPortalBase : String := "https://developers.tochka.com/docs/pay-gateway/api"
def payGatewayPrefix : String := "Приём платежей"

def medusaSpecUrl : String := "https://enter.tochka.com/doc/medusa/swagger.json"
def medusaPortalBase : String := "https://developers.tochka.com/docs/medusa/api"
def medusaPrefix : String := "Безопасные сделки"

def cyclopsPrefix : String := "Номинальный счёт"

/-! ### Products -/

/-- The name of a service of a product. -/
def prefixed (product name : String) : String := product ++ ". " ++ name

def prefixedTags (text : Text) (product : String) (operation : Entries) : Except PyError (List Node) := do
  let tags ← tagsOf (.map operation)
  return tags.map (fun tag => textNode (prefixed product (str text tag)))

/-- Every operation's tags are prefixed with the product name. -/
def prefixTags (text : Text) (product : String) (spec : Entries) : Except PyError Entries :=
  retag (prefixedTags text product) spec

def parseProduct {m : Type → Type} [Monad m] [MonadExceptOf PyError m] (src : Source m) (specUrl portalBase product : String) :
    m (Dict Scalar (List RawMethod)) := do
  let spec ← fetchSpec src specUrl
  let spec ← py (prefixTags src.text product spec)
  parseOpenapiSpec (docPortal src.text portalBase) src.docs (.map spec) (some specUrl)

/-! ### What a prefix does -/

theorem prefixedTags_text (text : Text) (product : String) {operation : Entries} {names : List String}
    (has : HasTags operation names) : prefixedTags text product operation =
      .ok (((serviceNames names).map (prefixed product)).map textNode) := by
  simp only [prefixedTags, tagsOf_hasTags has, ok_bind, List.map_map]
  rfl

theorem prefixedTags_rename (text : Text) (product : String) : Renames (prefixedTags text product) (prefixed product) := by
  intro operation names tags has made
  rw [prefixedTags_text text product has, Except.ok.injEq] at made
  refine ⟨(serviceNames names).map (prefixed product), made.symm, ?_⟩
  cases names <;> simp [serviceNames]

section
variable {src : Source (Except PyError)} {specUrl portalBase product : String}

/-- Whatever tags a spec has, the services of the product have its prefix. -/
theorem prefixed_specMethods {text : Text} {portal : Portal} {docs : Documents (Except PyError)} {spec spec' : Entries}
    {url : Option String} {methods : List RawMethod} (passed : prefixTags text product spec = .ok spec')
    (read : specMethods portal docs (.map spec') url = .ok methods) {m : RawMethod} (listed : m ∈ methods) :
    ∃ name, m.serviceName = .str (prefixed product name) := by
  simp only [specMethods, py_except] at read
  obtain ⟨value, got, read⟩ := bind_ok.mp read
  obtain ⟨paths, unpacked, read⟩ := bind_ok.mp read
  have found : (lookup spec' "paths").getD (.map []) = .map paths := by
    obtain rfl := Except.ok.inj got
    cases there : (lookup spec' "paths").getD (.map []) with
    | map entries => rw [there] at unpacked; rw [Except.ok.inj unpacked]
    | scalar _ | list _ | set _ => rw [there] at unpacked; cases unpacked
  obtain ⟨e, among, part, ran, inside⟩ := mem_extend read m listed
  obtain ⟨item, same, o, here, part', entry, inside'⟩ := mem_pathMethods ran inside
  rcases entryMethods_cases entry with ⟨verb, operation, upper, rfl, known, made⟩ | ⟨-, rfl⟩
  · obtain ⟨path, _⟩ := e
    obtain rfl : _ = Node.map item := same
    have isRead : IsOperation paths operation := ⟨path, item, verb, among, here, by rw [known]; rfl⟩
    obtain ⟨old, tags, new, rfl⟩ := retagged_operation passed found isRead
    obtain ⟨oldTags, oldNamed, new⟩ := bind_ok.mp new
    obtain rfl := pure_ok.mp new
    obtain ⟨method, _, tags', -, -, named, looped, -, -⟩ := operationMethods_parts made
    have tagged : tagsOf (.map (withTags old (oldTags.map (fun tag => textNode (prefixed product (str text tag)))))) =
        .ok (oldTags.map (fun tag => textNode (prefixed product (str text tag)))) := by
      obtain ⟨first, rest, rfl⟩ := List.exists_cons_of_ne_nil (Sber.tagsOf_ne_nil oldNamed)
      simp only [tagsOf, get?, Python.get, withTags, lookup_setItem, if_true, Option.getD_some, ok_bind]
      rfl
    rw [tagged, Except.ok.injEq] at named
    obtain ⟨tag, listed', part, ran', inside''⟩ := mem_extend looped m inside'
    rw [← named] at listed'
    obtain ⟨oldTag, -, rfl⟩ := List.mem_map.mp listed'
    rcases taggedMethod_ok ran' with ⟨-, rfl⟩ | ⟨-, name, url, hashed, rfl⟩
    · cases inside''
    · obtain rfl := List.mem_singleton.mp inside''
      exact ⟨_, (Except.ok.inj hashed).symm⟩
  · cases inside'

end

end ScanApi.Tochka
