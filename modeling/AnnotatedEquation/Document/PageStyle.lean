/-
AnnotatedEquation/Document/PageStyle.lean

The fixed lines of the style sheet of an HTML page.
-/
import AnnotatedEquation.Text.Basic

namespace AnnotatedEquation.Html

/-- The rules between the color of each term and the use of the colors. -/
def styleRules : List Text := List.map String.toList
  ["    \x7d",
   "",
   "    * \x7b",
   "      margin: 0;",
   "      padding: 0;",
   "      box-sizing: border-box;",
   "    \x7d",
   "",
   "    body \x7b",
   "      font-family: 'ETBembo', Palatino, 'Palatino Linotype', 'Book Antiqua', Georgia, serif;",
   "      background-color: var(--bg-color);",
   "      color: var(--text-color);",
   "      line-height: 1.6;",
   "      padding: 2rem;",
   "      max-width: 900px;",
   "      margin: 0 auto;",
   "    \x7d",
   "",
   "    h1 \x7b",
   "      font-size: 2rem;",
   "      font-weight: 400;",
   "      margin-bottom: 2rem;",
   "    \x7d",
   "",
   "    .equation-container \x7b",
   "      padding: 2rem 0;",
   "      margin-bottom: 2rem;",
   "      display: flex;",
   "      justify-content: center;",
   "      align-items: center;",
   "    \x7d",
   "",
   "    .equation-container .katex \x7b",
   "      font-size: 1.6rem;",
   "    \x7d",
   "",
   "    .description \x7b",
   "      border-top: 1px solid var(--border-color);",
   "      padding-top: 1.5rem;",
   "      margin-bottom: 2rem;",
   "    \x7d",
   "",
   "    .description [class^=\"term-\"] \x7b",
   "      font-weight: 600;",
   "    \x7d",
   "",
   "    [class^=\"term-\"], [class*=\" term-\"] \x7b",
   "      transition: opacity 0.2s ease;",
   "      cursor: pointer;",
   "    \x7d",
   "",
   "    .term-active \x7b",
   "      opacity: 0.6;",
   "    \x7d",
   "",
   "    .term-clicked \x7b",
   "      opacity: 0.6;",
   "      outline: 2px solid currentColor;",
   "      outline-offset: 2px;",
   "    \x7d",
   "",
   "    .hover-explanation \x7b",
   "      border-top: 1px solid var(--border-color);",
   "      padding-top: 1rem;",
   "      margin-top: 1rem;",
   "      min-height: 3rem;",
   "      opacity: 0;",
   "      pointer-events: none;",
   "    \x7d",
   "",
   "    .hover-explanation.visible \x7b",
   "      opacity: 1;",
   "    \x7d",
   "",
   "    .definitions \x7b",
   "      display: none;",
   "    \x7d",
   ""]

/-- The rules for printing, and the end of the style sheet. -/
def printRules : List Text := List.map String.toList
  ["",
   "    @media print \x7b",
   "      body \x7b",
   "        max-width: 100%;",
   "      \x7d",
   "",
   "      .definitions \x7b",
   "        display: block;",
   "      \x7d",
   "    \x7d",
   "  </style>"]

end AnnotatedEquation.Html
