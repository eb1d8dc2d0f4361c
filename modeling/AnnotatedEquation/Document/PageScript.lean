/-
AnnotatedEquation/Document/PageScript.lean

The fixed lines of the script of an HTML page: it typesets the math, shows
the definition of the active term, and keeps the hover and click state.
-/
import AnnotatedEquation.Text.Basic

namespace AnnotatedEquation.Html

/-- The script behind the table of definitions, to the end of the page. -/
def scriptLines : List Text := List.map String.toList
  ["      var panel = document.getElementById('hover-explanation');",
   "      // kind is 'none', 'hovered' or 'clicked'; a clicked term wins over hover.",
   "      var state = \x7bkind: 'none', term: null\x7d;",
   "      var pinned = null;",
   "",
   "      function typeset(root) \x7b",
   "        if (typeof katex === 'undefined') return;",
   "        root.querySelectorAll('.math').forEach(function(el) \x7b",
   "          katex.render(el.textContent, el, \x7b",
   "            displayMode: el.classList.contains('math-display'),",
   "            trust: true,",
   "            strict: false,",
   "            throwOnError: false",
   "          \x7d);",
   "        \x7d);",
   "      \x7d",
   "",
   "      function termOf(el) \x7b",
   "        var cls = Array.prototype.find.call(el.classList, function(c) \x7b return c.indexOf('term-') === 0; \x7d);",
   "        return cls ? cls.slice(5) : null;",
   "      \x7d",
   "",
   "      function mark(term, cls, on) \x7b",
   "        if (!term) return;",
   "        document.querySelectorAll('.term-' + CSS.escape(term)).forEach(function(el) \x7b",
   "          el.classList.toggle(cls, on);",
   "        \x7d);",
   "      \x7d",
   "",
   "      function show(term) \x7b",
   "        if (term && definitions[term] !== undefined) \x7b",
   "          panel.innerHTML = definitions[term];",
   "          typeset(panel);",
   "          panel.classList.add('visible');",
   "        \x7d else \x7b",
   "          panel.classList.remove('visible');",
   "        \x7d",
   "      \x7d",
   "",
   "      function transition(next) \x7b",
   "        var previous = state;",
   "        state = next;",
   "        if (previous.kind === 'hovered') mark(previous.term, 'term-active', false);",
   "        if (state.kind === 'hovered') mark(state.term, 'term-active', true);",
   "        show(state.term);",
   "      \x7d",
   "",
   "      typeset(document);",
   "",
   "      document.querySelectorAll('[class^=\"term-\"], [class*=\" term-\"]').forEach(function(el) \x7b",
   "        var term = termOf(el);",
   "        if (!term || definitions[term] === undefined) return;",
   "",
   "        el.addEventListener('mouseenter', function() \x7b",
   "          transition(pinned ? \x7bkind: 'clicked', term: pinned\x7d : \x7bkind: 'hovered', term: term\x7d);",
   "        \x7d);",
   "",
   "        el.addEventListener('mouseleave', function() \x7b",
   "          transition(pinned ? \x7bkind: 'clicked', term: pinned\x7d : \x7bkind: 'none', term: null\x7d);",
   "        \x7d);",
   "",
   "        el.addEventListener('click', function() \x7b",
   "          mark(pinned, 'term-clicked', false);",
   "          pinned = pinned === term ? null : term;",
   "          mark(pinned, 'term-clicked', true);",
   "          transition(pinned ? \x7bkind: 'clicked', term: pinned\x7d : \x7bkind: 'none', term: null\x7d);",
   "        \x7d);",
   "      \x7d);",
   "    \x7d)();",
   "  </script>",
   "</body>",
   "</html>"]

end AnnotatedEquation.Html
