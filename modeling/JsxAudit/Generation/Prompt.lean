import JsxAudit.Source.PageContext

/-!
What is asked of a service: instructions for each kind of text, and a prompt for each place.
-/

namespace JsxAudit.Generation

open Source

/-! ### Instructions -/

def imageInstructions : String :=
"You are an accessibility expert generating alt text for images following WCAG 2.1 guidelines.

Rules:
- Write 1-2 sentences, prefer under 125 characters
- Describe what the image SHOWS, not what it IS
- Never start with \"Image of...\", \"Photo of...\", \"Picture of...\"
- Include visible text, actions, and key details
- If the image is purely decorative (border, spacer, gradient), return exactly: \"\"
- Respect the target locale for the response language
- Be specific and contextual, use the page context provided"

def labelInstructions : String :=
"You are an accessibility expert. Generate an accessible aria-label for icon-only buttons and links.

Rules:
- Return ONLY the label text, nothing else
- Output MUST be in the language of the locale (e.g. Polish for pl, German for de)
- Use action-oriented phrasing: describe what happens when the user activates it, not what the icon looks like
- Keep it short: 2-5 words
- Use the icon name and component context to infer the action

Examples (follow these patterns):
- ShoppingCartIcon -> \"Add to cart\"
- HeartIcon -> \"Add to favorites\"
- ShareIcon -> \"Share\"
- XMarkIcon, close button -> \"Close\"
- Bars3Icon, menu -> \"Open menu\"
- MagnifyingGlassIcon -> \"Search\"
- TwitterIcon link -> \"Visit Twitter\" or \"Visit X\"
- Avoid bare nouns: \"Cart\" -> \"Add to cart\", \"Twitter\" -> \"Visit Twitter\""

def titleInstructions : String :=
"You are an accessibility expert. Generate a concise page title for a Next.js page.

Rules:
- Return ONLY the title text, nothing else
- Keep it short: 1-4 words
- Output MUST be in the language of the locale
- Describe the page purpose, not the framework or component"

/-! ### Prompts -/

/-- The route of the page, unless it is empty. -/
def routeOf (context : PageContext) : Option String :=
  context.route.filter (· != "")

def headingList (context : PageContext) : String :=
  ", ".intercalate context.headings

/-- One line per part, each part present or not. -/
def linesOf (parts : List (Option String)) : String :=
  "\n".intercalate (parts.filterMap id)

/-- Asks for the text of an image that is sent along. -/
def imagePrompt (context : PageContext) (locale : String) : String :=
  linesOf
    [some "Generate WCAG-compliant alt text for this image.",
      some ("Context: This image is in the \"" ++ context.component ++ "\" component."),
      (routeOf context).map ("Page route: " ++ ·),
      if context.headings.isEmpty then none else some ("Nearby headings: " ++ headingList context),
      some ("Locale: " ++ locale),
      some "Return ONLY the alt text string, nothing else."]

/-- Asks for the text of an image of which only the source is known. -/
def blindImagePrompt (context : PageContext) (locale source : String) : String :=
  imagePrompt context locale ++ "\nImage source: " ++ source ++
    "\nNote: Image could not be loaded, generate alt text based on context only."

/-- What a rule calls the controls it labels. -/
def controlName (rule : String) : String :=
  if rule = "button-label" then "button" else if rule = "link-label" then "link" else "input"

/-- Asks for the label of a control. -/
def labelPrompt (rule element : String) (context : PageContext) (locale : String)
    (icon : Option String) : String :=
  "Generate an aria-label for this icon-only " ++ controlName rule ++ ":\n\n" ++
    linesOf
      [(icon.filter (· != "")).map ("Icon component: " ++ ·), some ("Element: " ++ element),
        some ("Component: " ++ context.component), (routeOf context).map ("Route: " ++ ·),
        if context.headings.isEmpty then none
        else some ("Nearby headings: " ++ headingList context),
        some ("Locale: " ++ locale), some "",
        some ("Return ONLY the action-oriented label (e.g. \"Add to cart\", \"Visit Twitter\").")]

/-- Asks for the title of a page. -/
def titlePrompt (context : PageContext) (locale : String) : String :=
  let headings := if context.headings.isEmpty then "none" else headingList context
  linesOf
    [some "Generate a page title for this Next.js page:", some "",
      some ("Component: " ++ context.component),
      some ("Route: " ++ (routeOf context).getD "/"), some ("Headings on page: " ++ headings),
      some ("Locale: " ++ locale), some "",
      some "Return ONLY the title text (e.g. \"Home\", \"About Us\", \"Contact\")."]

end JsxAudit.Generation
