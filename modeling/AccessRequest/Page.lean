import AccessRequest.Html
import AccessRequest.Route
import AccessRequest.Resolution

/-!
The application's pages. The access-denied page explains the missing permission and offers a
request-access button, enabled only when the resolution has a URL to open, labelled
`Loading...` while the call is in flight; a failed call adds a notice. The not-found page links
back to the access-denied page. A route shows its page.
-/

namespace AccessRequest.Page

/-- An element with a class. -/
def withClass (tag cls : String) (children : List Html) : Html := .element tag [("class", cls)] children

/-- An element with text only. -/
def textElement (tag text : String) : Html := .element tag [] [.text text]

/-- The request-access button for a state. -/
def requestButton (s : AccessUrlState) : Html :=
  let cls := if s.loading then "request-access-button loading" else "request-access-button"
  let attributes := if s.canOpen then [("class", cls)] else [("disabled", "disabled"), ("class", cls)]
  .element "button" attributes [.text (requestButtonLabel s.loading)]

/-- The access-denied page for a state of its resolution. -/
def accessDenied (s : AccessUrlState) : Html :=
  let failure := match s.failure with
    | some text =>
      [withClass "p" "banned-contact"
        [.text "The access request link could not be loaded: ", .text text]]
    | none => []
  withClass "div" "banned-container" [withClass "div" "banned-content" ([
    withClass "div" "banned-icon" [.text "🔒"],
    textElement "h1" "Permission Denied",
    withClass "p" "banned-message" [.text
      "You do not have permission to use this feature yet. Use \"Request access\" below to apply for it."],
    withClass "div" "banned-reason" [
      textElement "h3" "About this permission",
      textElement "p" "This feature is maintained by the platform's resource administrators and is granted to administrators only.",
      textElement "p" "Business users do not need this permission; use the business menu directly instead."],
    withClass "div" "banned-reason" [
      textElement "h3" "About this feature",
      textElement "p" "Resource management hides the differences between cloud vendors behind one management model.",
      textElement "p" "It manages resources across several clouds and accounts, covering their whole lifecycle from creation to recycling and destruction."]]
    ++ failure ++ [requestButton s])]

/-- The not-found page. -/
def notFound : Html :=
  withClass "div" "banned-container" [withClass "div" "banned-content" [
    withClass "div" "banned-icon" [.text "🔍"],
    textElement "h1" "Page Not Found",
    withClass "p" "banned-message" [.text "The page you are looking for does not exist."],
    withClass "p" "banned-contact" [.element "a" [("href", "/403")] [.text "Back to the permission page"]]]]

/-- The page a route shows, with the access-denied page in state `s`. -/
def forRoute (route : Route) (s : AccessUrlState) : Html :=
  match route with
  | .forbidden => accessDenied s
  | .forbiddenFor _ => accessDenied s
  | .notFound => notFound

end AccessRequest.Page
