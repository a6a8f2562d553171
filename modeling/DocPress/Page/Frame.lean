import DocPress.Block.Title

/-!
# Navigation and footer

The links in the header of a page and its footer. The options may replace both by language; a
footer of theirs is written as it is given.
-/

namespace DocPress.Page

set_option autoImplicit false

/-- The language with built-in texts of its own. -/
def chinese : String := "zh-hans"

def chineseLinks : List NavLink := [
  ⟨"主页", "/zh/index.html"⟩,
  ⟨"文章", "/zh/posts.html"⟩,
  ⟨"关于", "/zh/about.html"⟩,
  ⟨"English", "/index.html"⟩,
  ⟨"Github", "https://github.com/waterlens"⟩]

def englishLinks : List NavLink := [
  ⟨"Home", "/index.html"⟩,
  ⟨"Posts", "/posts.html"⟩,
  ⟨"About", "/about.html"⟩,
  ⟨"中文", "/zh/index.html"⟩,
  ⟨"Github", "https://github.com/waterlens"⟩]

def navLink (l : NavLink) : Markup :=
  [.text "  ", .element .a [attr .href l.href] [.attrText l.title]]

/-- The links of a language: those of the options, else the built-in ones. -/
def navigation (links : Option (List NavLink)) (lang : String) : Markup :=
  let builtIn := if lang = chinese then chineseLinks else englishLinks
  .stack .nav [] ((links.getD builtIn).map navLink)

def badge (name : String) : Markup :=
  [.void .img [
    attr .alt "",
    attr .style "height:22px!important;margin-left:3px;vertical-align:text-bottom;",
    attr .src ("https://mirrors.creativecommons.org/presskit/icons/" ++ name ++
      ".svg?ref=chooser-v1")]]

/-- The licence behind its name, with its badges. -/
def licence (name : String) : Markup :=
  [.element .a [
      attr .href "http://creativecommons.org/licenses/by-sa/4.0/?ref=chooser-v1",
      attr .target "_blank",
      attr .rel "license noopener noreferrer",
      attr .style "display:inline-block;"]
    (.text ("\n        " ++ name ++ " ") ::
      (([.text "\n        "] : Markup).intercalate (["cc", "by", "sa"].map badge) ++
        [.text "\n    "]))]

def siteLink (href name : String) : Html :=
  .element .a [attr .property "dct:title", attr .rel "cc:attributionURL", attr .href href]
    [.text name]

def siteAuthor : Html :=
  .element .span [attr .property "cc:attributionName"] [.text "Waterlens"]

def chineseFooter : List Markup := [
  [siteLink "/zh/index.html" "本站"],
  [.text "由 ", siteAuthor],
  [.text "创作的一切内容 © 2021 - 2024 在"],
  licence "知识共享 署名 - 相同方式共享 4.0 协议",
  [.text "之条款下提供。"]]

def englishFooter : List Markup := [
  [.text "The content on ", siteLink "/" "this website"],
  [.text "© 2021 - 2024 by ", siteAuthor],
  [.text "is licensed under"],
  licence "CC BY-SA 4.0"]

/-- The footer of a language: the one of the options, else the built-in one. -/
def footer (configured : Option String) (lang : String) : Markup :=
  match configured with
  | some footer => [.raw footer]
  | none =>
    let lines := if lang = chinese then chineseFooter else englishFooter
    let paragraph : Html := .element .p []
      (.lineEnd :: (lines.flatMap fun l => .text "    " :: (l ++ [.lineEnd])) ++ [.text "  "])
    .stack .footer [] [[.text "  ", paragraph]]

end DocPress.Page
